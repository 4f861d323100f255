import Mathlib.Logic.Function.Basic
import RowSync.Proofs.Exchange

/-!
# No Lost Update between Devices

Any number of devices keep the rows of a scope as they last received them, each with a baseline, and
exchange changes at any time (`Device.Course`). An exchange writes over a stored version of a row
only if the device knows that version (`Device.Knows`): it is the one that the device received last,
or a tombstone of before the snapshot that the device started from, which snapshots leave out. The
mutations of a row whose stored version the device does not know give way to it
(`Device.no_lost_update`). The invariant is that a device knows every stored version that was not
written after its baseline (`Device.Informed`).
-/

namespace RowSync

/-- What a device keeps of a scope. -/
structure Device where
  /-- The baseline from which the device exchanges changes. -/
  baseline : Timestamp
  /-- The rows by id, as the device last received them. -/
  received : OrderedMap RowId Row
  /-- The baseline of the snapshot that the device started from, if it did. -/
  snapshotBaseline : Option Timestamp
deriving DecidableEq, Repr

namespace Device

/-- A device that has received nothing. -/
def initial : Device := ⟨0, ∅, none⟩

/-- A device that starts from a snapshot. -/
def ofSnapshot (report : SyncReport) : Device :=
  ⟨report.newTimestamp, .insertAll Row.id ∅ report.changes, some report.newTimestamp⟩

/-- Take over what a report tells. -/
def adopt (device : Device) (report : SyncReport) : Device where
  baseline := report.newTimestamp
  received := .insertAll Row.id device.received report.changes
  snapshotBaseline := device.snapshotBaseline

/-- The device received the version last of all those of the row, or the version is a tombstone of
before the snapshot that the device started from. -/
def Knows (device : Device) (version : Row) : Prop :=
  device.received.get? version.id = some version ∨
    ∃ base, device.snapshotBaseline = some base ∧ version.deleted = true ∧ version.modifiedAt ≤ base

variable {device : Device} {state state' : ScopeState} {store : Store} {scope : Scope}
  {limits : Limits} {now : Timestamp} {batch : List Mutation} {report : SyncReport} {version : Row}
  {id : RowId}

/-! ## Devices and states -/

/-- The device knows every stored version that was not written after its baseline. -/
structure Informed (device : Device) (state : ScopeState) : Prop where
  /-- The baseline is not ahead of the scope. -/
  baseline_le : device.baseline ≤ state.mark
  /-- Versions up to the baseline are known. -/
  knows : ∀ {id version}, state.get? id = some version → version.modifiedAt ≤ device.baseline →
    device.Knows version

/-- A device that has received nothing has the baseline zero, up to which nothing is written. -/
theorem informed_initial (hsound : state.Sound) : initial.Informed state where
  baseline_le := UInt64.zero_le
  knows hget hle := absurd hle (UInt64.not_le.2 (hsound.positive hget))

/-- A device stays informed when rows are written. -/
theorem Informed.of_growsTo (h : device.Informed state) (hgrows : state.GrowsTo state') :
    device.Informed state' where
  baseline_le := UInt64.le_trans h.baseline_le hgrows.mark_le_mark
  knows {id version} hget hle := by
    rcases hgrows.get?_cases id with hsame | ⟨row, hrow, hlt⟩
    · exact h.knows (hsame.symm.trans hget) hle
    · -- A row that was written is ahead of the mark, and so of the baseline.
      rw [hget] at hrow
      cases hrow
      have hahead : device.baseline < version.modifiedAt :=
        UInt64.lt_of_le_of_lt h.baseline_le hlt
      exact absurd hle (UInt64.not_le.2 hahead)

/-- A snapshot tells all versions but the tombstones, which are not later than its baseline. -/
theorem informed_ofSnapshot (hsound : state.Sound) :
    (ofSnapshot state.snapshot).Informed state where
  baseline_le := UInt64.le_refl _
  knows {id version} hget hle := by
    have hid : version.id = id := hsound.keyed hget
    subst hid
    cases hdeleted : version.deleted with
    | true => exact .inr ⟨state.mark, rfl, hdeleted, hle⟩
    | false =>
      have hlive : version ∈ state.liveRows := hsound.mem_liveRows_iff.2 ⟨hget, hdeleted⟩
      exact .inl (OrderedMap.get?_insertAll_of_mem hsound.nodup_liveRows hlive)

/-- A device that takes over an exchange of its own knows all versions that are stored then. -/
theorem Informed.adopt_sync (h : device.Informed state) (hsound : state.Sound)
    (hsync : state.sync limits now device.baseline batch = .ok (report, state')) :
    (device.adopt report).Informed state' := by
  have hgrows : state.GrowsTo state' := ScopeState.growsTo_of_sync hsound hsync
  have hsound' : state'.Sound := hsound.of_growsTo hgrows
  have hchanges : report.changes = state'.changesAfter device.baseline := by
    rw [ScopeState.report_sync hsync]
    rfl
  refine ⟨?_, fun {id version} hget _ => ?_⟩
  · rw [adopt, (ScopeState.sync_eq_ok hsound h.baseline_le hsync).newTimestamp]
    exact UInt64.le_refl _
  · have hid : version.id = id := hsound'.keyed hget
    subst hid
    show OrderedMap.get? (.insertAll Row.id device.received report.changes) _ = _ ∨ _
    rw [hchanges]
    rcases UInt64.lt_or_le device.baseline version.modifiedAt with hlt | hbehind
    · -- A version after the baseline is told.
      have htold := hsound'.mem_changesAfter_iff.2 ⟨hget, hlt⟩
      exact .inl (OrderedMap.get?_insertAll_of_mem hsound'.nodup_changesAfter htold)
    · -- Any other version is not told, and was known before.
      have hother : ∀ row ∈ state'.changesAfter device.baseline, row.id ≠ version.id := by
        intro row hrow hid
        obtain ⟨hfound, hlt⟩ := hsound'.mem_changesAfter_iff.1 hrow
        rw [hid, hget] at hfound
        cases hfound
        exact absurd hbehind (UInt64.not_le.2 hlt)
      rw [OrderedMap.get?_insertAll_of_ne hother]
      exact (h.of_growsTo hgrows).knows hget hbehind

/-! ## Exchanges -/

/-- An exchange writes over a stored version only if the device knows it. A version that the device
does not know stays, and its row is a conflict if the batch names it. -/
theorem Informed.sync_keeps (h : device.Informed state) (hsound : state.Sound)
    (hsync : state.sync limits now device.baseline batch = .ok (report, state'))
    (hget : state.get? id = some version) :
    (state'.get? id ≠ some version → device.Knows version) ∧
      (¬device.Knows version → ∀ mutation ∈ batch, mutation.rowId = id →
        id ∈ report.conflicts ∧ state'.get? id = some version) := by
  have hcontract := ScopeState.sync_eq_ok hsound h.baseline_le hsync
  have hid : version.id = id := hsound.keyed hget
  subst hid
  -- A version that is not known is after the baseline, and rows changed after it stay.
  have hseen (hunknown : ¬device.Knows version) :
      version ∈ state.changesAfter device.baseline := by
    refine hsound.mem_changesAfter_iff.2 ⟨hget, UInt64.not_le.1 fun hle => ?_⟩
    exact hunknown (h.knows hget hle)
  constructor
  · intro hchanged
    by_contra hunknown
    exact hchanged (hcontract.kept version (hseen hunknown))
  · intro hunknown mutation hmutation hrow
    have hnamed : version.id ∈ batch.map Mutation.rowId := hrow ▸ List.mem_map_of_mem hmutation
    refine ⟨(hcontract.mem_conflicts _).2 ⟨hnamed, ?_⟩, hcontract.kept version (hseen hunknown)⟩
    exact List.mem_map_of_mem (hseen hunknown)

/-! ## Courses -/

section Courses

open SyncTables

variable {ι : Type} [DecidableEq ι] {devices : ι → Device}

/-- A course of a store and of devices on one of its scopes. Any device may start from a snapshot at
any time, or exchange changes from its baseline and take over what it is told; in between any calls
are made on the store. An exchange that fails is such a call. -/
inductive Course (limits : Limits) (scope : Scope) : Store → (ι → Device) → Prop
  | start : Course limits scope ∅ fun _ => Device.initial
  | call {store : Store} {devices : ι → Device} (other : Scope) (now : Timestamp) (call : SyncCall)
    (hcourse : Course limits scope store devices) :
    Course limits scope (perform limits store other now call).2 devices
  | snapshot {store : Store} {devices : ι → Device} (i : ι)
    (hcourse : Course limits scope store devices) :
    Course limits scope store
      (Function.update devices i (ofSnapshot (SyncTables.snapshot store scope)))
  | exchange {store : Store} {devices : ι → Device} {now : Timestamp} {batch : List Mutation}
    {report : SyncReport} (i : ι) (hcourse : Course limits scope store devices)
    (hsync : (sync limits store scope now (devices i).baseline batch).1 = .ok report) :
    Course limits scope (sync limits store scope now (devices i).baseline batch).2
      (Function.update devices i ((devices i).adopt report))

/-- If all devices are informed, they are so after one of them was replaced by an informed one. -/
theorem informed_update (hdevice : device.Informed state)
    (hdevices : ∀ i, (devices i).Informed state) (i : ι) :
    ∀ j, (Function.update devices i device j).Informed state :=
  (Function.forall_update_iff devices fun _ (other : Device) => other.Informed state).2
    ⟨hdevice, fun j _ => hdevices j⟩

/-- In a course every device is informed. -/
theorem Course.informed (hcourse : Course limits scope store devices) :
    store.Sound ∧ ∀ i, (devices i).Informed (store.state scope) := by
  induction hcourse with
  | start => exact ⟨Store.sound_empty, fun _ => informed_initial ScopeState.sound_initial⟩
  | call other now call _ ih =>
    obtain ⟨hsound, hinformed⟩ := ih
    refine ⟨(follows_perform hsound call).sound, fun i => ?_⟩
    exact (hinformed i).of_growsTo (growsTo_perform hsound other call)
  | snapshot i _ ih =>
    obtain ⟨hsound, hinformed⟩ := ih
    exact ⟨hsound, informed_update (informed_ofSnapshot (hsound scope).state) hinformed i⟩
  | exchange i _ hsync ih =>
    obtain ⟨hsound, hinformed⟩ := ih
    have hstate := sync_of_result hsound hsync
    -- To all other devices the exchange is a call like any other.
    have hgrows := ScopeState.growsTo_of_sync (hsound scope).state hstate
    have hself := (hinformed i).adopt_sync (hsound scope).state hstate
    have hothers := fun j => (hinformed j).of_growsTo hgrows
    exact ⟨(follows_sync hsound _ _).sound, informed_update hself hothers i⟩

/-- No update is lost between devices. In any course, if an exchange of a device succeeds and a row
was stored before it, the exchange writes over the stored version only if the device knows it. If
the device does not know the version, every mutation of the row in its batch is a conflict, and the
version stays. -/
theorem no_lost_update (hcourse : Course limits scope store devices) (i : ι)
    (hsync : (sync limits store scope now (devices i).baseline batch).1 = .ok report)
    (hget : (store.table scope).get? id = some version) :
    (((sync limits store scope now (devices i).baseline batch).2.table scope).get? id ≠
        some version → (devices i).Knows version) ∧
      (¬(devices i).Knows version → ∀ mutation ∈ batch, mutation.rowId = id →
        id ∈ report.conflicts ∧
          ((sync limits store scope now (devices i).baseline batch).2.table scope).get? id =
            some version) := by
  obtain ⟨hsound, hinformed⟩ := hcourse.informed
  exact (hinformed i).sync_keeps (hsound scope).state (sync_of_result hsound hsync) hget

/-- Two devices of which one starts from a snapshot of the sample store. -/
def sampleDevices : Bool → Device :=
  Function.update (fun _ => initial) true (ofSnapshot (snapshot sampleStore sampleScope))

/-- The sample store after one of its rows was edited. -/
def editedSampleStore : Store :=
  (perform {} sampleStore sampleScope 3000 (.put "a" (sampleNote "edited"))).2

/-- What the device is told when it wants to write the edited row and to delete the other one. -/
def conflictReport : SyncReport where
  newTimestamp := 4000
  changes := [⟨"a", sampleNote "edited", 3000, false⟩, ⟨"b", sampleNote "other", 4000, true⟩]
  conflicts := ["a"]

/-- The device deletes a row that it knows. The edit of the other row, which it does not know, stays
as it is. -/
theorem no_lost_update_sample :
    (sampleDevices true).Knows ⟨"b", sampleNote "other", 2000, false⟩ ∧
      "a" ∈ conflictReport.conflicts ∧
      ((sync {} editedSampleStore sampleScope 4000 (sampleDevices true).baseline
        [.upsert "a" (sampleNote "lost"), .delete "b"]).2.table sampleScope).get? "a" =
          some ⟨"a", sampleNote "edited", 3000, false⟩ := by
  have hcourse : Course {} sampleScope editedSampleStore sampleDevices :=
    .call sampleScope 3000 (.put "a" (sampleNote "edited"))
      (.snapshot true (.call _ _ _ (.call _ _ _ .start)))
  have hsync : (sync {} editedSampleStore sampleScope 4000 (sampleDevices true).baseline
      [.upsert "a" (sampleNote "lost"), .delete "b"]).1 = .ok conflictReport := by decide +kernel
  have hunknown : ¬(sampleDevices true).Knows ⟨"a", sampleNote "edited", 3000, false⟩ := by
    rintro (hreceived | ⟨base, -, hdeleted, -⟩)
    · exact absurd hreceived (by decide +kernel)
    · cases hdeleted
  have hedited : (editedSampleStore.table sampleScope).get? "a" =
      some ⟨"a", sampleNote "edited", 3000, false⟩ := by rfl
  have hother : (editedSampleStore.table sampleScope).get? "b" =
      some ⟨"b", sampleNote "other", 2000, false⟩ := by rfl
  obtain ⟨hknown, -⟩ := no_lost_update hcourse true hsync hother
  obtain ⟨-, hconflict⟩ := no_lost_update hcourse true hsync hedited
  obtain ⟨hmem, hkept⟩ := hconflict hunknown _ (List.mem_cons_self ..) rfl
  exact ⟨hknown (by decide +kernel), hmem, hkept⟩

end Courses

end Device

end RowSync
