import MyOS.Lib.FixedArray
import Mathlib.Algebra.Group.Nat.Defs

/-! The ATA disk seen through its driver: whole sectors, each transfer of which may fail. -/

namespace MyOS

/-- One disk sector. -/
abbrev Sector := FixedArray 512 UInt8

/-- Sector numbers the LBA28 addressing of `ata_select_lba28` can name. -/
def lba28 (lba : UInt32) : Nat := lba.toNat % 2 ^ 28

/--
The disk and its controller.

The driver polls the status port before each sector, so every sector transfer succeeds or
fails on its own. The pattern of failures is a parameter of the device.
-/
structure Ata where
  ready : Bool
  sectors : Nat → Sector
  fails : Nat → Bool
  /-- Sector transfers attempted so far, which index the pattern of failures. -/
  transfers : Nat
  /-- Every sector written so far, oldest first. The driver does not keep this log. -/
  writes : List (Nat × Sector)

namespace Ata

/-- The disk with one sector replaced. -/
def store (sectors : Nat → Sector) (lba : Nat) (sector : Sector) : Nat → Sector :=
  fun at_ => if at_ = lba then sector else sectors at_

/-- Transfer one sector from the disk. -/
def readSector (lba : Nat) (a : Ata) : Option Sector × Ata :=
  -- An attempt counts whether or not it succeeds.
  let a' := { a with transfers := a.transfers + 1 }
  if a.fails a.transfers then (none, a') else (some (a.sectors lba), a')

/-- Transfer one sector to the disk. A failed transfer leaves the sector as it was. -/
def writeSector (lba : Nat) (sector : Sector) (a : Ata) : Bool × Ata :=
  let a' := { a with transfers := a.transfers + 1 }
  if a.fails a.transfers then (false, a')
  -- What reaches the disk is noted in the order in which it gets there.
  else (true, { a' with
    sectors := store a.sectors lba sector
    writes := a.writes ++ [(lba, sector)] })

/-- The sector loop of `ata_read_sectors`, stopping at the first failed transfer. -/
def readLoop : Nat → Nat → Ata → Option (List Sector) × Ata
  | _, 0, a => (some [], a)
  | lba, count + 1, a =>
    -- The sectors behind one that fails are not tried.
    match readSector lba a with
    | (none, a) => (none, a)
    | (some sector, a) =>
      match readLoop (lba + 1) count a with
      | (none, a) => (none, a)
      | (some rest, a) => (some (sector :: rest), a)

/-- The sector loop of `ata_write_sectors`, stopping at the first failed transfer. -/
def writeLoop : Nat → List Sector → Ata → Bool × Ata
  | _, [], a => (true, a)
  | lba, sector :: rest, a =>
    -- The sectors before one that fails stay written.
    match writeSector lba sector a with
    | (false, a) => (false, a)
    | (true, a) => writeLoop (lba + 1) rest a

/--
`ata_read_sectors`: read consecutive sectors, or fail.

No caller uses the sectors that arrived before a failed one.
-/
def readSectors (lba : UInt32) (count : Nat) (a : Ata) : Option (List Sector) × Ata :=
  -- A missing disk is not tried, and zero sectors are an error.
  if !a.ready || count == 0 then (none, a) else readLoop (lba28 lba) count a

/-- `ata_write_sectors`: write consecutive sectors, or fail. -/
def writeSectors (lba : UInt32) (data : List Sector) (a : Ata) : Bool × Ata :=
  if !a.ready || data.length == 0 then (false, a) else writeLoop (lba28 lba) data a

/-- The disk is present and no transfer ever fails. -/
structure Sound (a : Ata) : Prop where
  ready : a.ready = true
  reliable : ∀ n, a.fails n = false

/-- Whether the next transfer succeeds. -/
def answers (a : Ata) : Bool := a.ready && !a.fails a.transfers

/-- The transfers attempted once one more was asked for. A missing disk is not tried. -/
def tried (a : Ata) : Nat := if a.ready then a.transfers + 1 else a.transfers

/-- The next transfers, as many as given, all succeed. -/
def Serves (a : Ata) (count : Nat) : Prop :=
  ∀ m, m < count → a.ready = true ∧ a.fails (a.transfers + m) = false

/-- The device after reads only: nothing but the transfer count has moved. -/
def afterReads (a : Ata) (transfers : Nat) : Ata := { a with transfers := transfers }

/-- The disk image a list of sector writes leaves behind. -/
def applyWrites (sectors : Nat → Sector) : List (Nat × Sector) → Nat → Sector
  | [] => sectors
  | (lba, sector) :: rest => applyWrites (store sectors lba sector) rest

/-- The device after a list of sector writes that all succeeded. -/
def wrote (a : Ata) (log : List (Nat × Sector)) : Ata :=
  -- Every write is a transfer of its own.
  { a with
    sectors := applyWrites a.sectors log
    transfers := a.transfers + log.length
    writes := a.writes ++ log }

section Laws

variable {a : Ata}

/-- A sound device always answers. -/
theorem Sound.answers (sound : a.Sound) : a.answers = true := by
  simp [Ata.answers, sound.ready, sound.reliable]

/-- A sound device tries every transfer it is asked for. -/
theorem Sound.tried (sound : a.Sound) : a.tried = a.transfers + 1 := by
  simp [Ata.tried, sound.ready]

/-- After a log of writes, the device answers if the next transfer is not one that fails. -/
theorem answers_wrote {log : List (Nat × Sector)} :
    (a.wrote log).answers = true ↔
      a.ready = true ∧ a.fails (a.transfers + log.length) = false := by
  -- Each write was one transfer.
  simp [Ata.answers, wrote]

/-- One more transfer that succeeds. -/
theorem Serves.next {count : Nat} (served : a.Serves count)
    (now : a.ready = true ∧ a.fails (a.transfers + count) = false) : a.Serves (count + 1) := by
  intro m small
  -- The last of them is the one added.
  rcases Nat.lt_succ_iff_lt_or_eq.mp small with before | rfl
  · exact served m before
  · exact now

/-- A sound device serves any number of transfers. -/
theorem Sound.serves (sound : a.Sound) (count : Nat) : a.Serves count :=
  fun _ _ => ⟨sound.ready, sound.reliable _⟩

/-- One sector is read, if the device answers. -/
theorem readSectors_one (a : Ata) (lba : UInt32) :
    a.readSectors lba 1 =
      (if a.answers then some [a.sectors (lba28 lba)] else none, a.afterReads a.tried) := by
  -- A device that is not ready attempts no transfer, and any other attempts one.
  obtain ⟨ready, sectors, fails, transfers, writes⟩ := a
  simp only [readSectors, readLoop, readSector, Ata.answers, Ata.tried, afterReads]
  cases ready with
  | false => simp
  | true => by_cases failing : fails transfers = true <;> simp [failing]

/-- Writing sectors changes no other sector, even where the disk fails on the way. -/
theorem writeLoop_outside (data : List Sector) (lba : Nat) {at_ : Nat}
    (apart : at_ < lba ∨ lba + data.length ≤ at_) :
    (writeLoop lba data a).2.sectors at_ = a.sectors at_ := by
  -- By induction on the data: the sectors follow each other from the first one on.
  induction data generalizing lba a with
  | nil => rfl
  | cons sector rest ih =>
    rw [List.length_cons] at apart
    unfold writeLoop writeSector
    simp only
    cases a.fails a.transfers with
    | true => rfl
    | false =>
      refine (ih (lba + 1) (by omega)).trans (if_neg ?_)
      omega

/-- Writing does not change how the disk behaves. -/
theorem writeLoop_device (data : List Sector) (lba : Nat) :
    (writeLoop lba data a).2.ready = a.ready ∧ (writeLoop lba data a).2.fails = a.fails := by
  -- By induction on the data.
  induction data generalizing lba a with
  | nil => exact ⟨rfl, rfl⟩
  | cons sector rest ih =>
    unfold writeLoop writeSector
    simp only
    cases a.fails a.transfers with
    | true => exact ⟨rfl, rfl⟩
    | false => exact ih (lba + 1)

/-- One sector is written, if the device answers. -/
theorem writeSectors_one (a : Ata) (lba : UInt32) (sector : Sector) :
    a.writeSectors lba [sector] = if a.answers then (true, a.wrote [(lba28 lba, sector)])
      else (false, a.afterReads a.tried) := by
  -- A device that is not ready attempts no transfer, and any other attempts one.
  obtain ⟨ready, sectors, fails, transfers, writes⟩ := a
  simp only [writeSectors, writeLoop, writeSector, Ata.answers, Ata.tried, afterReads, wrote]
  cases ready with
  | false => simp
  | true => by_cases failing : fails transfers = true <;> simp [failing, applyWrites]

/-- The sector stored is read back. -/
@[simp] theorem store_same (sectors : Nat → Sector) (lba : Nat) (sector : Sector) :
    store sectors lba sector lba = sector := by simp [store]

/-- The other sectors are as they were. -/
theorem store_ne (sectors : Nat → Sector) {lba other : Nat} (sector : Sector)
    (apart : other ≠ lba) : store sectors lba sector other = sectors other := by
  simp [store, apart]

/-- Without writes nothing changes. -/
@[simp] theorem applyWrites_nil (sectors : Nat → Sector) : applyWrites sectors [] = sectors := rfl

/-- The first write of a log comes first. -/
@[simp] theorem applyWrites_cons (sectors : Nat → Sector) (lba : Nat) (sector : Sector)
    (rest : List (Nat × Sector)) :
    applyWrites sectors ((lba, sector) :: rest) = applyWrites (store sectors lba sector) rest := rfl

/-- Writes happen in the order of the log. -/
theorem applyWrites_append (sectors : Nat → Sector) (first second : List (Nat × Sector)) :
    applyWrites sectors (first ++ second) = applyWrites (applyWrites sectors first) second := by
  -- By induction on the writes that come first.
  induction first generalizing sectors with
  | nil => rfl
  | cons entry rest ih => exact ih _

/-- A sector the log does not name keeps its content. -/
theorem applyWrites_other {sectors : Nat → Sector} {log : List (Nat × Sector)} {lba : Nat}
    (untouched : ∀ entry ∈ log, entry.1 ≠ lba) : applyWrites sectors log lba = sectors lba := by
  -- By induction on the log.
  induction log generalizing sectors with
  | nil => rfl
  | cons entry rest ih =>
    rw [applyWrites_cons, ih fun e member => untouched e (List.mem_cons_of_mem _ member)]
    exact store_ne _ _ (Ne.symm (untouched entry List.mem_cons_self))

/-- Every sector after a log of writes is either untouched or the content of one of its entries. -/
theorem applyWrites_cases (sectors : Nat → Sector) (log : List (Nat × Sector)) (lba : Nat) :
    applyWrites sectors log lba = sectors lba ∨ (lba, applyWrites sectors log lba) ∈ log := by
  -- By induction on the log: the last write to a sector is the one that stays.
  induction log generalizing sectors with
  | nil => exact Or.inl rfl
  | cons entry rest ih =>
    rcases ih (store sectors entry.1 entry.2) with same | member
    · by_cases here : lba = entry.1
      · subst here
        right
        rw [applyWrites_cons, same, store_same]
        exact List.mem_cons_self
      · left
        rw [applyWrites_cons, same, store_ne _ _ here]
    · exact Or.inr (List.mem_cons_of_mem _ member)

/-- A sector whose every entry in the log has one content, holds it after the writes. -/
theorem applyWrites_written {sectors : Nat → Sector} {log : List (Nat × Sector)} {lba : Nat}
    {content : Sector} (start : sectors lba = content ∨ ∃ entry ∈ log, entry.1 = lba)
    (only : ∀ entry ∈ log, entry.1 = lba → entry.2 = content) :
    applyWrites sectors log lba = content := by
  induction log generalizing sectors with
  | nil =>
    rcases start with same | ⟨entry, member, -⟩
    · exact same
    · cases member
  | cons entry rest ih =>
    rw [applyWrites_cons]
    refine ih ?_ fun e member => only e (List.mem_cons_of_mem _ member)
    by_cases here : lba = entry.1
    · -- This write puts the content in place.
      left
      subst here
      rw [store_same]
      exact only entry List.mem_cons_self rfl
    · rw [store_ne _ _ here]
      rcases start with same | ⟨e, member, target⟩
      · exact Or.inl same
      · rcases List.mem_cons.mp member with rfl | later
        · exact absurd target.symm here
        · exact Or.inr ⟨e, later, target⟩

/-- On a sound device a read returns the stored sectors and moves only the transfer count. -/
theorem readLoop_sound (sound : a.Sound) (lba count : Nat) :
    readLoop lba count a = (some ((List.range count).map fun k => a.sectors (lba + k)),
      a.afterReads (a.transfers + count)) := by
  -- By induction on the sectors that are left to read.
  induction count generalizing lba a with
  | zero => rfl
  | succ count ih =>
    have next : (a.afterReads (a.transfers + 1)).Sound := ⟨sound.ready, sound.reliable⟩
    have first : readSector lba a = (some (a.sectors lba), a.afterReads (a.transfers + 1)) := by
      simp [readSector, sound.reliable, afterReads]
    simp only [readLoop, first, ih next]
    simp [afterReads, List.range_succ_eq_map, Function.comp_def, Nat.add_assoc, Nat.add_comm 1]

/-- On a sound device every sector of a write reaches the disk. -/
theorem writeLoop_sound (sound : a.Sound) (lba : Nat) (data : List Sector) :
    writeLoop lba data a = (true, a.wrote (data.mapIdx fun k sector => (lba + k, sector))) := by
  -- By induction on the sectors that are left to write.
  induction data generalizing lba a with
  | nil => simp [writeLoop, wrote]
  | cons sector rest ih =>
    have first : writeSector lba sector a = (true, a.wrote [(lba, sector)]) := by
      simp [writeSector, sound.reliable, wrote]
    have next : (a.wrote [(lba, sector)]).Sound := ⟨sound.ready, sound.reliable⟩
    simp only [writeLoop, first, ih next]
    simp [wrote, List.mapIdx_cons, Nat.add_assoc, Nat.add_comm 1]

end Laws

/-- One device is another after a list of writes, up to the number of transfers so far. -/
structure Extends (a : Ata) (log : List (Nat × Sector)) (b : Ata) : Prop where
  sectors : b.sectors = applyWrites a.sectors log
  writes : b.writes = a.writes ++ log
  ready : b.ready = a.ready
  fails : b.fails = a.fails

namespace Extends

variable {a b c : Ata} {first second : List (Nat × Sector)}

/-- Nothing was done. -/
theorem refl (a : Ata) : Extends a [] a := ⟨rfl, by simp, rfl, rfl⟩

/-- Reads write nothing. -/
theorem afterReads (a : Ata) (transfers : Nat) : Extends a [] (a.afterReads transfers) :=
  ⟨rfl, by simp [Ata.afterReads], rfl, rfl⟩

/-- A log of writes was performed. -/
theorem wrote (a : Ata) (log : List (Nat × Sector)) : Extends a log (a.wrote log) :=
  ⟨rfl, rfl, rfl, rfl⟩

/-- The writes of two phases come one after the other. -/
theorem trans (before : Extends a first b) (after : Extends b second c) :
    Extends a (first ++ second) c :=
  -- The logs are joined, and the device is the same one throughout.
  ⟨by rw [after.sectors, before.sectors, applyWrites_append],
    by rw [after.writes, before.writes, List.append_assoc],
    after.ready.trans before.ready, after.fails.trans before.fails⟩

/-- A sound device stays sound. -/
theorem sound (extended : Extends a first b) (sound : a.Sound) : b.Sound :=
  ⟨extended.ready.trans sound.ready, fun n => by rw [extended.fails]; exact sound.reliable n⟩

end Extends

/-- One device is another but for a range of sectors, and it behaves in the same way. -/
structure Within (low high : Nat) (a b : Ata) : Prop where
  sectors : ∀ lba, lba < low ∨ high ≤ lba → b.sectors lba = a.sectors lba
  ready : b.ready = a.ready
  fails : b.fails = a.fails

namespace Within

variable {a b c : Ata} {low high : Nat}

/-- Nothing was written. -/
theorem refl (a : Ata) : Within low high a a := ⟨fun _ _ => rfl, rfl, rfl⟩

/-- Two phases that keep to a range. -/
theorem trans (first : Within low high a b) (second : Within low high b c) : Within low high a c :=
  ⟨fun lba outside => (second.sectors lba outside).trans (first.sectors lba outside),
    second.ready.trans first.ready, second.fails.trans first.fails⟩

/-- A sound device stays sound. -/
theorem sound (within : Within low high a b) (sound : a.Sound) : b.Sound :=
  ⟨within.ready.trans sound.ready, fun n => by rw [within.fails, sound.reliable n]⟩

/-- A log of writes to sectors of the range. -/
theorem ofExtends {log : List (Nat × Sector)} (extended : Extends a log b)
    (inside : ∀ entry ∈ log, low ≤ entry.1 ∧ entry.1 < high) : Within low high a b := by
  refine ⟨fun lba outside => ?_, extended.ready, extended.fails⟩
  rw [extended.sectors]
  -- An entry of the log that names the sector would lie in the range.
  apply applyWrites_other
  intro entry member same
  have := inside entry member
  omega

/-- Sectors of the range are written, even where the disk fails on the way. -/
theorem writeSectors {lba : UInt32} {data : List Sector} (after : low ≤ lba28 lba)
    (before : lba28 lba + data.length ≤ high) : Within low high a (a.writeSectors lba data).2 := by
  -- The loop writes from its first sector on, as many as there are data.
  unfold Ata.writeSectors
  split
  · exact refl a
  · have device := @writeLoop_device a data (lba28 lba)
    refine ⟨fun at_ outside => ?_, device.1, device.2⟩
    apply writeLoop_outside
    omega

/-- Reading changes no sector at all. -/
theorem readLoop (count : Nat) : ∀ {a : Ata} (lba : Nat), Within low high a (a.readLoop lba count).2 := by
  -- By induction on the sectors that are left to be read.
  induction count with
  | zero => exact fun {a} _ => refl a
  | succ count ih =>
    intro a lba
    have one : Within low high a (readSector lba a).2 := by
      unfold readSector
      split <;> exact ⟨fun _ _ => rfl, rfl, rfl⟩
    unfold Ata.readLoop
    generalize readSector lba a = result at one
    obtain ⟨sector, b⟩ := result
    cases sector with
    | none => exact one
    | some sector =>
      have rest := one.trans (ih (a := b) (lba + 1))
      simp only
      generalize Ata.readLoop (lba + 1) count b = result at rest
      obtain ⟨sectors, c⟩ := result
      cases sectors <;> exact rest

/-- So does a call that reads. -/
theorem readSectors (lba : UInt32) (count : Nat) : Within low high a (a.readSectors lba count).2 := by
  -- Reads write nothing.
  unfold Ata.readSectors
  split
  · exact refl a
  · exact readLoop count _

end Within

end Ata

end MyOS
