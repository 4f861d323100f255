import RowSync.Proofs.BulkWrites
import RowSync.Proofs.History
import RowSync.Proofs.Replica

/-!
# The Baseline after a Bulk Write

The report of a bulk write tells the mark of the scope as the new baseline, but of the rows only
those that the batch wrote. A client that was complete as of its old baseline
(`Replica.CompleteAsOf`) and takes over such a report passes over what others wrote in between. Once
it asked for the changes after its new baseline it is up to date just if no row that it passed over
looks different, apart from rows that were written again in the meantime
(`Replica.bulk_adoption_iff`).
-/

namespace RowSync

namespace ScopeState

variable {state : ScopeState} {history rows : List Row} {time : Timestamp}

/-- The state of a scope at a time, of which all rows that were ever written are given: at the mark
that the scope had once it is the state of then (`HasHistory.asOf_mark`). -/
def asOf (history : List Row) (time : Timestamp) : ScopeState :=
  initial.putAll (history.filter fun row => row.modifiedAt ≤ time)

theorem Fresh.filter (h : state.Fresh rows) (p : Row → Bool) : state.Fresh (rows.filter p) where
  ordered := List.Pairwise.filter p h.ordered
  ahead row hrow := h.ahead row (List.mem_filter.1 hrow).1
  inRange row hrow := h.inRange row (List.mem_filter.1 hrow).1

theorem HasHistory.sound_asOf (h : state.HasHistory history) (time : Timestamp) :
    (asOf history time).Sound :=
  sound_initial.putAll (h.fresh.filter _)

/-- The state at the mark that a state had once is that state, whatever was written since. -/
theorem HasHistory.asOf_mark (h : state.HasHistory history) (hrows : state.Fresh rows) :
    asOf (history ++ rows) state.mark = state := by
  have hsince : (rows.filter fun row => row.modifiedAt ≤ state.mark) = [] := by
    refine List.filter_eq_nil_iff.2 fun row hrow => ?_
    simpa using hrows.ahead row hrow
  have hbefore : (history.filter fun row => row.modifiedAt ≤ state.mark) = history := by
    refine List.filter_eq_self.2 fun row hrow => decide_eq_true ?_
    rw [h.eq_putAll]
    exact h.fresh.le_mark row hrow
  rw [asOf, List.filter_append, hbefore, hsince, List.append_nil]
  exact h.eq_putAll.symm

end ScopeState

namespace Replica

variable {replica : Replica} {state state' later : ScopeState} {named : List RowId}
  {report : SyncReport} {rows : OrderedMap RowId Payload} {time : Timestamp} {id : RowId}

/-! ## Taking over changes after a mark -/

/-- A row that was written after a time is taken over with the changes after the time. -/
theorem get?_foldl_overlay_of_lt (hsound : state.Sound) {row : Row}
    (hget : state.get? id = some row) (hlt : time < row.modifiedAt) :
    ((state.changesAfter time).foldl overlay rows).get? id = livePayload? (state.get? id) := by
  have hid : row.id = id := hsound.keyed hget
  subst hid
  rw [get?_foldl_overlay_of_mem hsound.nodup_changesAfter
    (hsound.mem_changesAfter_iff.2 ⟨hget, hlt⟩), hget]

/-- Any other row is kept as it was. -/
theorem get?_foldl_overlay_of_le (hsound : state.Sound)
    (hle : ∀ row, state.get? id = some row → row.modifiedAt ≤ time) :
    ((state.changesAfter time).foldl overlay rows).get? id = rows.get? id := by
  refine get?_foldl_overlay_of_notMem fun hid => ?_
  obtain ⟨row, hrow, rfl⟩ := List.mem_map.1 hid
  obtain ⟨hget, hlt⟩ := hsound.mem_changesAfter_iff.1 hrow
  exact absurd (hle row hget) (UInt64.not_le.2 hlt)

/-- A client that takes over the report of a bulk write has the rows that are named as they are
stored. -/
theorem get?_adopt_of_named (hwritten : state.BulkWritten state' named report)
    (hsound' : state'.Sound) (hid : id ∈ named) :
    (replica.adopt report).rows.get? id = livePayload? (state'.get? id) := by
  obtain ⟨row, hget⟩ := hwritten.written id hid
  have hrow : row.id = id := hsound'.keyed hget
  subst hrow
  have hchanged : row ∈ state'.changesAfter state.mark :=
    hwritten.changes ▸ (hwritten.mem_changes row).2 ⟨hget, hid⟩
  rw [adopt, hwritten.changes]
  exact get?_foldl_overlay_of_lt hsound' hget (hsound'.mem_changesAfter_iff.1 hchanged).2

/-- It has all other rows as before. -/
theorem get?_adopt_of_not_named (hwritten : state.BulkWritten state' named report)
    (hid : id ∉ named) : (replica.adopt report).rows.get? id = replica.rows.get? id := by
  refine get?_foldl_overlay_of_notMem fun hmem => ?_
  obtain ⟨row, hrow, rfl⟩ := List.mem_map.1 hmem
  exact hid ((hwritten.mem_changes row).1 hrow).2

/-- A client that takes over the report of a bulk write, and at some later time the changes after
its new baseline, is up to date then just if it was right about each row that was neither named nor
written since. -/
theorem upToDate_adopt_bulk_iff (hwritten : state.BulkWritten state' named report)
    (hsound' : state'.Sound) (hgrows : state'.GrowsTo later) :
    ((replica.adopt report).adopt
        (.ofChanges state'.mark (later.changesAfter state'.mark))).UpToDate later ↔
      ∀ id, id ∉ named → later.get? id = state.get? id →
        replica.rows.get? id = livePayload? (state.get? id) := by
  have hlater : later.Sound := hsound'.of_growsTo hgrows
  -- Row by row: the change after the new baseline decides, then the report, then what was there.
  have hrow (id : RowId) :
      ((replica.adopt report).adopt
          (.ofChanges state'.mark (later.changesAfter state'.mark))).rows.get? id =
          livePayload? (later.get? id) ↔
        (id ∉ named → later.get? id = state.get? id →
          replica.rows.get? id = livePayload? (state.get? id)) := by
    rw [adopt, SyncReport.ofChanges]
    rcases hgrows.get?_cases id with hsame | ⟨row, hget, hlt⟩
    · have hle (row : Row) (hget : later.get? id = some row) : row.modifiedAt ≤ state'.mark :=
        hsound'.le_mark (hsame ▸ hget)
      rw [get?_foldl_overlay_of_le hlater hle, hsame]
      by_cases hid : id ∈ named
      · simp [get?_adopt_of_named hwritten hsound' hid, hid]
      · simp [get?_adopt_of_not_named hwritten hid, hwritten.untouched id hid, hid]
    · rw [get?_foldl_overlay_of_lt hlater hget hlt]
      refine ⟨fun _ hid hsame => ?_, fun _ => rfl⟩
      -- A row that is not named and stays as it was is not ahead of the mark.
      have hbefore : state'.get? id = some row :=
        (hwritten.untouched id hid).trans (hsame.symm.trans hget)
      exact absurd (hsound'.le_mark hbefore) (UInt64.not_le.2 hlt)
  constructor
  · exact fun h id => (hrow id).1 (h.get?_eq id)
  · intro h
    exact ⟨hlater.newTimestamp_ofChanges hgrows.mark_le_mark, fun id => (hrow id).2 (h id)⟩

/-! ## Clients that push and replace -/

open SyncTables

variable {limits : Limits} {scope : Scope} {store : Store} {history : List Row}

/-- The client has exactly the live rows that the scope had at its baseline, where all rows are
given that were ever written to the scope. -/
def CompleteAsOf (replica : Replica) (history : List Row) : Prop :=
  replica.rows.toList =
    (ScopeState.asOf history replica.baseline).liveRows.map fun row => (row.id, row.payload)

instance (replica : Replica) (history : List Row) : Decidable (replica.CompleteAsOf history) :=
  inferInstanceAs (Decidable (_ = _))

/-- What the client has that takes over a report and then the changes after its new baseline. -/
def catchUp (replica : Replica) (report : SyncReport) (store : Store) (scope : Scope) : Replica :=
  let adopted := replica.adopt report
  adopted.adopt (changesSince store scope adopted.baseline)

/-- A client that catches up after a bulk write agrees with the store just if it was right about
each row that was neither named nor written since. -/
theorem agrees_catchUp_iff {after last : Store} (hafter : after.Sound)
    (hwritten : (store.state scope).BulkWritten (after.state scope) named report)
    (hrun : RunsTo limits after last) :
    (replica.catchUp report last scope).Agrees last scope ↔
      ∀ id, id ∉ named → (last.state scope).get? id = (store.state scope).get? id →
        replica.rows.get? id = livePayload? ((store.state scope).get? id) := by
  have hlast : last.Sound := hrun.sound hafter
  have hbaseline : (replica.adopt report).baseline = (after.state scope).mark :=
    hwritten.newTimestamp
  rw [agrees_iff_upToDate (hlast scope).state, catchUp, hbaseline, changesSince,
    (hlast scope).rowsAfter_eq]
  exact upToDate_adopt_bulk_iff hwritten (hafter scope).state (hrun.growsTo hafter scope)

/-- A client that was complete as of its baseline, takes over the report of a push or of a
replacement, and asks later for the changes after its new baseline, has the live rows then just if
the rows that it passed over look the same as at its old baseline, apart from those that were
written since. Passed over are the rows that the batch does not name, and those that are neither
given by the replacement nor live before it. -/
theorem bulk_adoption_iff (hrun : Run limits scope store history)
    (hcomplete : replica.CompleteAsOf history) (now : Timestamp) :
    (∀ batch report last, (push limits store scope now batch).1 = .ok report →
      RunsTo limits (push limits store scope now batch).2 last →
        ((replica.catchUp report last scope).Agrees last scope ↔
          ∀ id, id ∉ batch.map Mutation.rowId →
            (last.state scope).get? id = (store.state scope).get? id →
              livePayload? ((ScopeState.asOf history replica.baseline).get? id) =
                livePayload? ((store.state scope).get? id))) ∧
      ∀ given report last, (replace limits store scope now given).1 = .ok report →
        RunsTo limits (replace limits store scope now given).2 last →
          ((replica.catchUp report last scope).Agrees last scope ↔
            ∀ id, id ∉ given.map FlatRow.id → livePayload? ((store.state scope).get? id) = none →
              (last.state scope).get? id = (store.state scope).get? id →
                livePayload? ((ScopeState.asOf history replica.baseline).get? id) = none) := by
  have hsound : store.Sound := sound_of_reachable hrun.reachable
  have hstate : (store.state scope).Sound := (hsound scope).state
  -- The client has the payloads of the rows that were live at its baseline.
  have hrows (id : RowId) : replica.rows.get? id =
      livePayload? ((ScopeState.asOf history replica.baseline).get? id) :=
    (toList_eq_iff (hrun.hasHistory.sound_asOf replica.baseline)).1 hcomplete id
  constructor
  · intro batch report last hpush hlast
    have hfollows : store.Follows scope (push limits store scope now batch) _ :=
      follows_push hsound batch
    have hwritten := ScopeState.bulkWritten_of_push hstate (hfollows.eq_ok hpush)
    rw [agrees_catchUp_iff hfollows.sound hwritten hlast]
    simp only [hrows]
  · intro given report last hreplace hlast
    have hfollows : store.Follows scope (replace limits store scope now given) _ :=
      follows_replace hsound given
    have hwritten := ScopeState.bulkWritten_of_replace hstate (hfollows.eq_ok hreplace)
    rw [agrees_catchUp_iff hfollows.sound hwritten hlast]
    -- The rows named are those given and those live before.
    simp only [hrows, List.mem_append, not_or, ← livePayload?_eq_none_iff hstate]
    refine forall_congr' fun id => ⟨?_, ?_⟩
    · intro h hid hnone hsame
      rw [h ⟨hid, hnone⟩ hsame, hnone]
    · rintro h ⟨hid, hnone⟩ hsame
      rw [h hid hnone hsame, hnone]

/-- A client that has the first sample row only, as of the time at which it was written. -/
def sampleReplica : Replica where
  baseline := 1000
  rows := (∅ : OrderedMap RowId Payload).insert "a" (sampleNote "first")

/-- The client pushes the row that another one wrote in between, and agrees with the store. -/
theorem bulk_adoption_iff_sample :
    let report : SyncReport := ⟨2001, [⟨"b", sampleNote "mine", 2001, false⟩], []⟩
    let pushed := (push {} sampleStore sampleScope 0 [.upsert "b" (sampleNote "mine")]).2
    (sampleReplica.catchUp report pushed sampleScope).Agrees pushed sampleScope := by
  intro report pushed
  have hcomplete : sampleReplica.CompleteAsOf sampleHistory := by decide +kernel
  have hpush := (bulk_adoption_iff run_sampleStore hcomplete 0).1
    [.upsert "b" (sampleNote "mine")] report pushed (by decide +kernel) .refl
  refine hpush.2 fun id hid _ => ?_
  -- But for the row that is pushed nothing was written since.
  have hsince : id ∉ [(⟨"b", sampleNote "other", 2000, false⟩ : Row)].map Row.id := by
    simpa [Mutation.rowId] using hid
  rw [run_sampleStore.hasHistory.eq_putAll]
  exact congrArg livePayload? (ScopeState.get?_putAll_of_notMem hsince).symm

/-- The client pushes its own row, and never learns the row that another one wrote in between. -/
theorem pushing_client_misses_row :
    let report : SyncReport := ⟨2001, [⟨"a", sampleNote "mine", 2001, false⟩], []⟩
    let pushed := push {} sampleStore sampleScope 0 [.upsert "a" (sampleNote "mine")]
    Run {} sampleScope sampleStore sampleHistory ∧ sampleReplica.CompleteAsOf sampleHistory ∧
      sampleReplica.baseline ≤ (sampleStore.table sampleScope).highWater ∧ pushed.1 = .ok report ∧
      (changesSince pushed.2 sampleScope report.newTimestamp).changes = [] ∧
      ¬ (sampleReplica.catchUp report pushed.2 sampleScope).Agrees pushed.2 sampleScope := by
  refine ⟨run_sampleStore, by decide +kernel, by decide +kernel, by decide +kernel,
    by decide +kernel, fun h => ?_⟩
  exact absurd h.rows (by decide +kernel)

end Replica

end RowSync
