import RowSync.Proofs.Exchange

/-!
# Replicas of Clients

A client keeps the live rows of a scope and a baseline, and takes over what it is told
(`Replica.adopt`). Other clients may write to the scope at any time, so that between its calls a
replica is right only about the rows that were not written after its baseline (`Replica.Behind`).
That is enough: after every call of the client that succeeds, the replica has exactly the live rows
of the scope and the baseline is its mark (`Replica.Agrees`).
-/

namespace RowSync

/-- What a client keeps of a scope. -/
structure Replica where
  /-- The baseline from which the client asks for changes. -/
  baseline : Timestamp
  /-- The payloads of the rows by id. -/
  rows : OrderedMap RowId Payload
deriving DecidableEq, Repr

namespace Replica

/-- The replica of a client that knows nothing. -/
def initial : Replica := ⟨0, ∅⟩

/-- Take over a changed row: a live one is kept with its payload, a tombstone is removed. -/
def overlay (rows : OrderedMap RowId Payload) (row : Row) : OrderedMap RowId Payload :=
  if row.deleted then rows.erase row.id else rows.insert row.id row.payload

/-- Take over what a report tells. -/
def adopt (replica : Replica) (report : SyncReport) : Replica :=
  ⟨report.newTimestamp, report.changes.foldl overlay replica.rows⟩

/-- The replica that consists of the rows of a snapshot. -/
def ofSnapshot (report : SyncReport) : Replica := initial.adopt report

/-- The replica has exactly the live rows of a scope, and its baseline is the mark of the scope. -/
structure Agrees (replica : Replica) (store : Store) (scope : Scope) : Prop where
  /-- The ids and payloads are those of the live rows. -/
  rows : replica.rows.toList = (store.liveRows scope).map fun row => (row.id, row.payload)
  /-- The baseline is the largest timestamp assigned. -/
  baseline : replica.baseline = (store.table scope).highWater

variable {replica : Replica} {state state' : ScopeState} {store : Store} {scope : Scope}
  {limits : Limits} {rows : OrderedMap RowId Payload} {changes : List Row} {id : RowId}

/-! ## Taking over changes -/

/-- The payload of a live row. -/
def livePayload? (row : Option Row) : Option Payload := (row.filter Row.isLive).map Row.payload

/-- A row that was taken over is kept as it is, and all others stay. -/
theorem get?_overlay (rows : OrderedMap RowId Payload) (row : Row) (id : RowId) :
    (overlay rows row).get? id =
      if id = row.id then livePayload? (some row) else rows.get? id := by
  rw [overlay, livePayload?, Option.filter_some, Row.isLive]
  cases row.deleted with
  | true => exact OrderedMap.get?_erase ..
  | false => exact OrderedMap.get?_insert ..

theorem get?_foldl_overlay_of_notMem (h : id ∉ changes.map Row.id) :
    (changes.foldl overlay rows).get? id = rows.get? id := by
  induction changes generalizing rows with
  | nil => rfl
  | cons row rest ih =>
    simp only [List.map_cons, List.mem_cons, not_or] at h
    rw [List.foldl_cons, ih h.2, get?_overlay, if_neg h.1]

/-- A changed row is taken over, if it is told once. -/
theorem get?_foldl_overlay_of_mem (hdistinct : (changes.map Row.id).Nodup) {row : Row}
    (h : row ∈ changes) :
    (changes.foldl overlay rows).get? row.id = livePayload? (some row) := by
  induction changes generalizing rows with
  | nil => simp at h
  | cons first rest ih =>
    obtain ⟨hfirst, hrest⟩ := List.nodup_cons.1 hdistinct
    rcases List.mem_cons.1 h with rfl | h
    · rw [List.foldl_cons, get?_foldl_overlay_of_notMem hfirst, get?_overlay, if_pos rfl]
    · exact ih hrest h

/-- A client that was right about all rows but the changed ones is right about all rows after it
took over the changes. -/
theorem get?_foldl_overlay (hdistinct : (changes.map Row.id).Nodup)
    (hstored : ∀ row ∈ changes, state.get? row.id = some row)
    (hothers : ∀ id, id ∉ changes.map Row.id → rows.get? id = livePayload? (state.get? id))
    (id : RowId) : (changes.foldl overlay rows).get? id = livePayload? (state.get? id) := by
  by_cases hid : id ∈ changes.map Row.id
  · -- What is told of a row is its current state.
    obtain ⟨row, hrow, rfl⟩ := List.mem_map.1 hid
    rw [get?_foldl_overlay_of_mem hdistinct hrow, hstored row hrow]
  · rw [get?_foldl_overlay_of_notMem hid, hothers id hid]

/-! ## Replicas that are behind -/

/-- The replica is right about all rows that were not written after its baseline. -/
structure Behind (replica : Replica) (state : ScopeState) : Prop where
  /-- The baseline is not ahead of the scope. -/
  baseline_le : replica.baseline ≤ state.mark
  /-- A row that was not written after the baseline, or that does not exist, is kept as it is. -/
  get?_eq : ∀ id, (∀ row, state.get? id = some row → row.modifiedAt ≤ replica.baseline) →
    replica.rows.get? id = livePayload? (state.get? id)

theorem behind_initial (hsound : state.Sound) : initial.Behind state where
  baseline_le := UInt64.zero_le
  get?_eq id hid := by
    cases hget : state.get? id with
    | none => rfl
    -- Every row was written after the baseline zero.
    | some row => exact absurd (hid row hget) (UInt64.not_le.2 (hsound.positive hget))

/-- A replica stays behind when rows are written. -/
theorem Behind.of_growsTo (h : replica.Behind state) (hgrows : state.GrowsTo state') :
    replica.Behind state' where
  baseline_le := UInt64.le_trans h.baseline_le hgrows.mark_le_mark
  get?_eq id hid := by
    rcases hgrows.get?_cases id with hsame | ⟨row, hget, hlt⟩
    · rw [hsame] at hid ⊢
      exact h.get?_eq id hid
    · -- A row that was written is ahead of the mark, and so of the baseline.
      have hahead : replica.baseline < row.modifiedAt := UInt64.lt_of_le_of_lt h.baseline_le hlt
      exact absurd (hid row hget) (UInt64.not_le.2 hahead)

/-! ## Replicas that are up to date -/

/-- The replica is right about all rows, and its baseline is the mark. -/
structure UpToDate (replica : Replica) (state : ScopeState) : Prop where
  /-- The baseline is the mark. -/
  baseline_eq : replica.baseline = state.mark
  /-- Every row is kept as it is. -/
  get?_eq : ∀ id, replica.rows.get? id = livePayload? (state.get? id)

/-- A replica that is up to date counts as behind, which it may get at any time. -/
theorem UpToDate.behind (h : replica.UpToDate state) : replica.Behind state where
  baseline_le := h.baseline_eq ▸ UInt64.le_refl _
  get?_eq id _ := h.get?_eq id

/-- A replica lists the live rows just if it is right about all rows. -/
theorem toList_eq_iff (hsound : state.Sound) :
    rows.toList = (state.liveRows.map fun row => (row.id, row.payload)) ↔
      ∀ id, rows.get? id = livePayload? (state.get? id) := by
  -- The live rows with their ids make a map, in which the payloads of the live rows are found.
  have hascending : Ascending (state.liveRows.map fun row => (row.id, row.payload)) := by
    refine List.pairwise_map.2 (List.Pairwise.filter _ ?_)
    refine OrderedMap.pairwise_values fun {a b x y} hx hy hlt => ?_
    have hxid : x.id = a := hsound.keyed hx
    have hyid : y.id = b := hsound.keyed hy
    rw [hxid, hyid]
    exact hlt
  have hlisted (id : RowId) :
      (⟨_, hascending⟩ : OrderedMap RowId Payload).get? id = livePayload? (state.get? id) := by
    refine Option.ext fun payload => ?_
    rw [OrderedMap.get?_eq_some_iff, livePayload?, List.mem_map, Option.map_eq_some_iff]
    constructor
    · rintro ⟨row, hrow, hentry⟩
      cases hentry
      obtain ⟨hget, hdeleted⟩ := hsound.mem_liveRows_iff.1 hrow
      exact ⟨row, Option.filter_eq_some_iff.2 ⟨hget, by simp [Row.isLive, hdeleted]⟩, rfl⟩
    · rintro ⟨row, hrow, rfl⟩
      obtain ⟨hget, hdeleted⟩ := Option.filter_eq_some_iff.1 hrow
      have hid : row.id = id := hsound.keyed hget
      subst hid
      refine ⟨row, hsound.mem_liveRows_iff.2 ⟨hget, ?_⟩, rfl⟩
      simpa [Row.isLive] using hdeleted
  constructor
  · intro hrows id
    obtain ⟨entries, hentries⟩ := rows
    cases hrows
    exact hlisted id
  · intro hrows
    have heq : rows = ⟨_, hascending⟩ :=
      OrderedMap.ext_get? fun id => (hrows id).trans (hlisted id).symm
    exact congrArg OrderedMap.toList heq

/-- A replica that is up to date lists the live rows, and no other replica does. -/
theorem agrees_iff_upToDate (hsound : (store.state scope).Sound) :
    replica.Agrees store scope ↔ replica.UpToDate (store.state scope) := by
  constructor
  · rintro ⟨hrows, hbaseline⟩
    exact ⟨hbaseline, (toList_eq_iff hsound).1 hrows⟩
  · rintro ⟨hbaseline, hrows⟩
    exact ⟨(toList_eq_iff hsound).2 hrows, hbaseline⟩

/-- A replica that is up to date lists the live rows. -/
theorem UpToDate.agrees (h : replica.UpToDate (store.state scope))
    (hsound : (store.state scope).Sound) : replica.Agrees store scope :=
  (agrees_iff_upToDate hsound).2 h

/-- The rows without a live payload are those that are not listed as live. -/
theorem livePayload?_eq_none_iff (hsound : state.Sound) :
    livePayload? (state.get? id) = none ↔ id ∉ state.liveRows.map Row.id := by
  rw [livePayload?, Option.map_eq_none_iff, Option.filter_eq_none_iff]
  constructor
  · intro hnone hid
    obtain ⟨row, hrow, rfl⟩ := List.mem_map.1 hid
    obtain ⟨hget, hdeleted⟩ := hsound.mem_liveRows_iff.1 hrow
    exact hnone row hget (by simp [Row.isLive, hdeleted])
  · intro hid row hget hlive
    have hrow : row.id = id := hsound.keyed hget
    subst hrow
    have hdeleted : row.deleted = false := by simpa [Row.isLive] using hlive
    exact hid (List.mem_map_of_mem (hsound.mem_liveRows_iff.2 ⟨hget, hdeleted⟩))

/-- A client that takes over a snapshot is up to date. -/
theorem upToDate_ofSnapshot (hsound : state.Sound) :
    (ofSnapshot state.snapshot).UpToDate state where
  baseline_eq := rfl
  get?_eq := by
    refine get?_foldl_overlay hsound.nodup_liveRows (fun row hrow => ?_) fun id hid => ?_
    · exact (hsound.mem_liveRows_iff.1 hrow).1
    · -- A row that the snapshot leaves out does not exist or is a tombstone.
      exact ((livePayload?_eq_none_iff hsound).2 hid).symm

/-- A client that is right about all rows that are not told takes over the changes after its
baseline, and is up to date. -/
theorem upToDate_adopt (replica : Replica) (hsound : state.Sound)
    (hbaseline : replica.baseline ≤ state.mark)
    (hrows : ∀ id, (∀ row, state.get? id = some row → row.modifiedAt ≤ replica.baseline) →
      replica.rows.get? id = livePayload? (state.get? id)) :
    (replica.adopt (.ofChanges replica.baseline (state.changesAfter replica.baseline))).UpToDate
      state where
  baseline_eq := hsound.newTimestamp_ofChanges hbaseline
  get?_eq := by
    refine get?_foldl_overlay hsound.nodup_changesAfter (fun row hrow => ?_) fun id hid => ?_
    · exact (hsound.mem_changesAfter_iff.1 hrow).1
    · -- A row that is not told was not written after the baseline.
      refine hrows id fun row hget => UInt64.not_lt.1 fun hlt => hid ?_
      have hrow : row.id = id := hsound.keyed hget
      subst hrow
      exact List.mem_map_of_mem (hsound.mem_changesAfter_iff.2 ⟨hget, hlt⟩)

/-- A client that edits the rows of a batch and exchanges it is up to date after it took over what
it is told. -/
theorem Behind.upToDate_sync (h : replica.Behind state) (hsound : state.Sound) {now : Timestamp}
    {batch : List Mutation} {edited : OrderedMap RowId Payload}
    (hedits : ∀ id, id ∉ batch.map Mutation.rowId → edited.get? id = replica.rows.get? id)
    {report : SyncReport}
    (hsync : state.sync limits now replica.baseline batch = .ok (report, state')) :
    (adopt ⟨replica.baseline, edited⟩ report).UpToDate state' := by
  have hgrows : state.GrowsTo state' := ScopeState.growsTo_of_sync hsound hsync
  have hsound' : state'.Sound := hsound.of_growsTo hgrows
  have hcontract := ScopeState.sync_eq_ok hsound h.baseline_le hsync
  rw [ScopeState.report_sync hsync]
  refine upToDate_adopt ⟨replica.baseline, edited⟩ hsound'
    (UInt64.le_trans h.baseline_le hgrows.mark_le_mark) fun id hid => ?_
  -- A row that was not written after the baseline is none of the batch, all of which are told.
  have hbatch : id ∉ batch.map Mutation.rowId := by
    intro hmem
    by_cases hseen : id ∈ (state.changesAfter replica.baseline).map Row.id
    · obtain ⟨row, hrow, rfl⟩ := List.mem_map.1 hseen
      have hlt := (hsound.mem_changesAfter_iff.1 hrow).2
      exact absurd (hid row (hcontract.kept row hrow)) (UInt64.not_le.2 hlt)
    · obtain ⟨row, hget, hlt, -⟩ := hcontract.written id hmem hseen
      have hahead : replica.baseline < row.modifiedAt := UInt64.lt_of_le_of_lt h.baseline_le hlt
      exact absurd (hid row hget) (UInt64.not_le.2 hahead)
  rw [hcontract.untouched id hbatch] at hid ⊢
  exact (hedits id hbatch).trans (h.get?_eq id hid)

/-! ## Courses -/

open SyncTables

/-- A course of a client and a store. The client starts with nothing or from a snapshot, asks for
the changes after its baseline or exchanges changes with edits of its own, and in between any calls
are made on the store. An exchange that fails is such a call. -/
inductive Course (limits : Limits) (scope : Scope) : Store → Replica → Prop
  | initial {store : Store} (hreach : Reachable limits store) :
    Course limits scope store Replica.initial
  | snapshot {store : Store} (hreach : Reachable limits store) :
    Course limits scope store (ofSnapshot (SyncTables.snapshot store scope))
  | call {store : Store} {replica : Replica} (other : Scope) (now : Timestamp) (call : SyncCall)
    (hcourse : Course limits scope store replica) :
    Course limits scope (perform limits store other now call).2 replica
  | pull {store : Store} {replica : Replica} (hcourse : Course limits scope store replica) :
    Course limits scope store (replica.adopt (changesSince store scope replica.baseline))
  | exchange {store : Store} {replica : Replica} {now : Timestamp} {batch : List Mutation}
    {edited : OrderedMap RowId Payload} {report : SyncReport}
    (hcourse : Course limits scope store replica)
    (hedits : ∀ id, id ∉ batch.map Mutation.rowId → edited.get? id = replica.rows.get? id)
    (hsync : (sync limits store scope now replica.baseline batch).1 = .ok report) :
    Course limits scope (sync limits store scope now replica.baseline batch).2
      (adopt ⟨replica.baseline, edited⟩ report)

/-- After an exchange that succeeds a client that was behind is up to date. -/
theorem Behind.upToDate_exchange (h : replica.Behind (store.state scope)) (hsound : store.Sound)
    {now : Timestamp} {batch : List Mutation} {edited : OrderedMap RowId Payload}
    {report : SyncReport}
    (hedits : ∀ id, id ∉ batch.map Mutation.rowId → edited.get? id = replica.rows.get? id)
    (hsync : (sync limits store scope now replica.baseline batch).1 = .ok report) :
    (sync limits store scope now replica.baseline batch).2.Sound ∧
      (adopt ⟨replica.baseline, edited⟩ report).UpToDate
        ((sync limits store scope now replica.baseline batch).2.state scope) := by
  have hfollows : store.Follows scope (sync limits store scope now replica.baseline batch) _ :=
    follows_sync hsound replica.baseline batch
  refine ⟨hfollows.sound, ?_⟩
  rw [hfollows.result] at hsync
  obtain ⟨⟨told, after⟩, hafter, rfl⟩ := map_eq_ok_iff.1 hsync
  rw [hfollows.state, hafter]
  exact h.upToDate_sync (hsound scope).state hedits hafter

/-- After the changes were asked for a client that was behind is up to date. -/
theorem Behind.upToDate_pull (h : replica.Behind (store.state scope)) (hsound : store.Sound) :
    (replica.adopt (changesSince store scope replica.baseline)).UpToDate (store.state scope) := by
  rw [changesSince, (hsound scope).rowsAfter_eq]
  exact upToDate_adopt replica (hsound scope).state h.baseline_le h.get?_eq

/-- In the course of a client its replica is always behind, at most. -/
theorem behind_of_course (h : Course limits scope store replica) :
    store.Sound ∧ replica.Behind (store.state scope) := by
  -- The replica may be behind after any call of others, and is up to date after one of its own.
  induction h with
  | initial hreach =>
    have hsound := sound_of_reachable hreach
    exact ⟨hsound, behind_initial (hsound _).state⟩
  | snapshot hreach =>
    have hsound := sound_of_reachable hreach
    exact ⟨hsound, (upToDate_ofSnapshot (hsound _).state).behind⟩
  | call other now call _ ih =>
    exact ⟨(follows_perform ih.1 call).sound, ih.2.of_growsTo (growsTo_perform ih.1 other call)⟩
  | pull _ ih => exact ⟨ih.1, (ih.2.upToDate_pull ih.1).behind⟩
  | exchange _ hedits hsync ih =>
    obtain ⟨hsound, hupToDate⟩ := ih.2.upToDate_exchange ih.1 hedits hsync
    exact ⟨hsound, hupToDate.behind⟩

/-- After every call of a client that succeeds its replica has exactly the live rows of the scope,
and its baseline is the mark of the scope, whatever was called before and in between. -/
theorem agrees_of_course (hcourse : Course limits scope store replica) :
    (ofSnapshot (snapshot store scope)).Agrees store scope ∧
      (replica.adopt (changesSince store scope replica.baseline)).Agrees store scope ∧
      ∀ now batch edited report,
        (∀ id, id ∉ batch.map Mutation.rowId → edited.get? id = replica.rows.get? id) →
        (sync limits store scope now replica.baseline batch).1 = .ok report →
        (adopt ⟨replica.baseline, edited⟩ report).Agrees
          (sync limits store scope now replica.baseline batch).2 scope := by
  obtain ⟨hsound, hbehind⟩ := behind_of_course hcourse
  -- After each of the three calls the replica is up to date, whatever it was before.
  refine ⟨?_, ?_, fun now batch edited report hedits hsync => ?_⟩
  · exact (upToDate_ofSnapshot (hsound scope).state).agrees (hsound scope).state
  · exact (hbehind.upToDate_pull hsound).agrees (hsound scope).state
  · obtain ⟨hafter, hupToDate⟩ := hbehind.upToDate_exchange hsound hedits hsync
    exact hupToDate.agrees (hafter scope).state

/-- A client that knows nothing of the sample store learns its rows, or exchanges a draft of its own
for them. -/
theorem agrees_of_course_sample :
    (adopt .initial (changesSince sampleStore sampleScope 0)).Agrees sampleStore sampleScope ∧
      (adopt ⟨0, (∅ : OrderedMap RowId Payload).insert "c" (sampleNote "draft")⟩
        ⟨2001, [⟨"a", sampleNote "first", 1000, false⟩, ⟨"b", sampleNote "other", 2000, false⟩,
          ⟨"c", sampleNote "new", 2001, false⟩], []⟩).Agrees
        (sync {} sampleStore sampleScope 0 0 [.upsert "c" (sampleNote "new")]).2 sampleScope := by
  have hcourse : Course {} sampleScope sampleStore .initial := .initial reachable_sampleStore
  obtain ⟨-, hpull, hexchange⟩ := agrees_of_course hcourse
  refine ⟨hpull, hexchange 0 [.upsert "c" (sampleNote "new")] _ _ (fun id hid => ?_)
    (by decide +kernel)⟩
  have hne : id ≠ "c" := by simpa [Mutation.rowId] using hid
  rw [OrderedMap.get?_insert, if_neg hne]
  rfl

end Replica

end RowSync
