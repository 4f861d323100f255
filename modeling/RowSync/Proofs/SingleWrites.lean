import RowSync.Proofs.CommittedWrites
import RowSync.Proofs.Runs
import RowSync.Proofs.StoreScopes

/-!
# Batches as Single Writes

A push stages the rows of its batch in one transaction and commits what is left of them in the end.
Single writes commit each row before the next one is written, and each of them takes up the clock of
the scope from the table. Nothing of this can be told afterwards: a store is known from the states
of its scopes (`Store.ext_state`), and on these both do the same. So a push succeeds just if single
writes at the same time of the wall clock all succeed, both leave the same store, and a push that
fails does so with the error of the first single write that fails
(`SyncTables.push_eq_single_writes`).
-/

namespace RowSync

/-! ## Stores are known from their states -/

/-- A sound table is known from its state: the index is that of the rows. -/
theorem Table.Sound.ext {table other : Table} (h : table.Sound) (h' : other.Sound)
    (hstate : table.state = other.state) : table = other := by
  have hrows : table.rows = other.rows := congrArg ScopeState.rows hstate
  have hmark : table.highWater = other.highWater := congrArg ScopeState.mark hstate
  have hindex : table.index = other.index := by
    refine OrderedMap.ext_get? fun key => Option.ext fun value => ?_
    -- The index keeps no values, so it is known from the keys in it.
    have hkeyed {table : Table} (h : table.Sound) : table.index.get? key = some value ↔
        ∃ row, table.rows.get? key.id = some row ∧ row.changeKey = key := by
      refine Iff.trans ?_ (h.indexed.exact key)
      rw [OrderedMap.contains_eq_true_iff]
      exact ⟨fun hget => ⟨value, hget⟩, fun ⟨_, hget⟩ => hget⟩
    rw [hkeyed h, hkeyed h', hrows]
  obtain ⟨rows, index, clock⟩ := table
  obtain ⟨rows', index', clock'⟩ := other
  obtain rfl : rows = rows' := hrows
  obtain rfl : index = index' := hindex
  obtain rfl : clock = clock' := congrArg HybridClock.mk hmark
  rfl

/-- A sound store that keeps tables with rows only is known from the states of its scopes. -/
theorem Store.ext_state {store other : Store} (h : store.Sound) (h' : other.Sound)
    (hpopulated : store.Populated) (hpopulated' : other.Populated)
    (hstate : ∀ scope, store.state scope = other.state scope) : store = other := by
  have htable (scope : Scope) : store.table scope = other.table scope :=
    (h scope).ext (h' scope) (hstate scope)
  -- Whether a scope is kept is known from its table, which has rows just if the scope is kept.
  have hkept {store : Store} (hpopulated : store.Populated) (scope : Scope) :
      store.tables.get? scope =
        if (store.table scope).rows.isEmpty then none else some (store.table scope) := by
    rw [Store.table]
    cases hget : store.tables.get? scope with
    | none => rfl
    | some table => simp [hpopulated scope table hget]
  have htables : store.tables = other.tables :=
    OrderedMap.ext_get? fun scope => by rw [hkept hpopulated, hkept hpopulated', htable]
  obtain ⟨tables⟩ := store
  obtain rfl : tables = other.tables := htables
  rfl

namespace SyncTables

variable {limits : Limits} {store : Store} {scope : Scope} {now : Timestamp} {batch : List Mutation}
  {mutation : Mutation} {rows : List Row} {state : ScopeState} {e : SyncError}

/-! ## Single writes -/

/-- Make the change of a mutation by a write of its own. -/
def writeSingle (scope : Scope) (now : Timestamp) (store : Store) :
    Mutation → Except SyncError Row × Store
  | .upsert id payload => store.upsert scope now id payload
  | .delete id => store.delete scope now id

/-- A single write of a valid row does what applying its mutation does. -/
theorem follows_writeSingle (h : store.Sound) (hid : checkRowId mutation.rowId = .ok ()) :
    store.Follows scope (writeSingle scope now store mutation)
      ((store.state scope).apply now mutation) := by
  have hstart := Transaction.sound_start (h scope) now
  have hguarded (body : Transaction → Except SyncError (Row × Transaction))
      (expected : Except SyncError (Row × ScopeState))
      (hbody : Transaction.Follows now (body (.start (store.table scope) now)) expected) :
      store.Follows scope (store.guarded (checkRowId mutation.rowId) fun store =>
        store.transact scope now body) expected := by
    have hfollows := h.follows_guarded (checkRowId mutation.rowId)
      (fun store => store.transact scope now body) (h.follows_transact hbody)
    rwa [hid] at hfollows ⊢
  cases mutation with
  | upsert id payload => exact hguarded _ _ (hstart.follows_upsert id payload none)
  | delete id => exact hguarded _ _ (hstart.follows_delete id none)

/-- If the mutation can be applied, then the single write succeeds with the same row, and leaves the
state that the mutation leaves. -/
theorem writeSingle_of_apply (h : store.Sound) (hid : checkRowId mutation.rowId = .ok ())
    {row : Row} (happly : (store.state scope).apply now mutation = .ok (row, state)) :
    (writeSingle scope now store mutation).1 = .ok row ∧
      (writeSingle scope now store mutation).2.state scope = state := by
  have hfollows : store.Follows scope (writeSingle scope now store mutation) _ :=
    follows_writeSingle h hid
  have hresult := hfollows.result
  have hstate := hfollows.state
  rw [happly] at hresult hstate
  exact ⟨hresult, hstate⟩

theorem populated_writeSingle (h : store.Populated) (scope : Scope) (now : Timestamp)
    (mutation : Mutation) : (writeSingle scope now store mutation).2.Populated := by
  cases mutation with
  | upsert id payload => exact (h.allOrNothing_upsert scope now id payload).populated
  | delete id => exact (h.allOrNothing_delete scope now id).populated

/-- Single writes keep a store as it should be, and leave all other scopes as they are. -/
theorem sound_single_writes (h : store.Sound) (hpopulated : store.Populated) (scope : Scope)
    (now : Timestamp) (hids : ∀ mutation ∈ batch, checkRowId mutation.rowId = .ok ()) :
    (runAll (writeSingle scope now) store batch).2.Sound ∧
      (runAll (writeSingle scope now) store batch).2.Populated ∧
      ∀ other, other ≠ scope →
        (runAll (writeSingle scope now) store batch).2.state other = store.state other := by
  induction batch generalizing store with
  | nil => exact ⟨h, hpopulated, fun _ _ => rfl⟩
  | cons mutation rest ih =>
    obtain ⟨hid, hrest⟩ := List.forall_mem_cons.1 hids
    have hfirst : store.Follows scope (writeSingle scope now store mutation) _ :=
      follows_writeSingle h hid
    obtain ⟨hsound, hkept, hothers⟩ :=
      ih hfirst.sound (populated_writeSingle hpopulated scope now mutation) hrest
    exact ⟨hsound, hkept, fun other hother =>
      (hothers other hother).trans (hfirst.others other hother)⟩

/-- If a batch can be applied, then all of its single writes succeed, with the same rows and with
the same state in the end. -/
theorem single_writes_of_ok (h : store.Sound)
    (hids : ∀ mutation ∈ batch, checkRowId mutation.rowId = .ok ())
    (happly : (store.state scope).applyAll now batch = .ok (rows, state)) :
    (runAll (writeSingle scope now) store batch).1 = rows.map .ok ∧
      (runAll (writeSingle scope now) store batch).2.state scope = state := by
  induction batch generalizing store rows with
  | nil =>
    cases happly
    exact ⟨rfl, rfl⟩
  | cons mutation rest ih =>
    obtain ⟨⟨row, middle⟩, hone, happly⟩ := bind_eq_ok_iff.1 happly
    obtain ⟨⟨others, last⟩, hrest, happly⟩ := bind_eq_ok_iff.1 happly
    cases happly
    obtain ⟨hid, hids⟩ := List.forall_mem_cons.1 hids
    have hfirst : store.Follows scope (writeSingle scope now store mutation) _ :=
      follows_writeSingle h hid
    -- The table after the first write has the state that the transaction goes on from.
    obtain ⟨hanswer, hmiddle⟩ := writeSingle_of_apply h hid hone
    rw [← hmiddle] at hrest
    obtain ⟨hanswers, hlast⟩ := ih hfirst.sound hids hrest
    refine ⟨?_, hlast⟩
    rw [runAll_cons, hanswer, hanswers, List.map_cons]

/-- If a batch cannot be applied, then some single write fails with the same error, after others
that succeed. -/
theorem single_writes_of_error (h : store.Sound)
    (hids : ∀ mutation ∈ batch, checkRowId mutation.rowId = .ok ())
    (happly : (store.state scope).applyAll now batch = .error e) :
    ∃ earlier later, (runAll (writeSingle scope now) store batch).1 = earlier ++ .error e :: later ∧
      ∀ answer ∈ earlier, ∃ row, answer = .ok row := by
  induction batch generalizing store with
  | nil => cases happly
  | cons mutation rest ih =>
    obtain ⟨hid, hids⟩ := List.forall_mem_cons.1 hids
    have hfirst : store.Follows scope (writeSingle scope now store mutation) _ :=
      follows_writeSingle h hid
    rw [runAll_cons]
    -- The first write fails, or it is the rest that cannot be applied.
    rcases bind_eq_error_iff.1 happly with hone | ⟨⟨row, middle⟩, hone, happly⟩
    · have hanswer : (writeSingle scope now store mutation).1 = .error e := by
        rw [hfirst.result, hone]
        rfl
      refine ⟨[], (runAll (writeSingle scope now) (writeSingle scope now store mutation).2 rest).1,
        ?_, by simp⟩
      rw [hanswer]
      rfl
    · rcases bind_eq_error_iff.1 happly with hrest | ⟨applied, -, hdone⟩
      · obtain ⟨hanswer, hmiddle⟩ := writeSingle_of_apply h hid hone
        rw [← hmiddle] at hrest
        obtain ⟨earlier, later, hanswers, hearlier⟩ := ih hfirst.sound hids hrest
        refine ⟨.ok row :: earlier, later, ?_, List.forall_mem_cons.2 ⟨⟨row, rfl⟩, hearlier⟩⟩
        rw [hanswer, hanswers]
        rfl
      · cases hdone

/-! ## Pushes -/

/-- A push of a batch that is let in applies the batch. -/
theorem push_of_checkBatch (state : ScopeState) (hbatch : limits.checkBatch batch = .ok ()) :
    state.push limits now batch = (state.applyAll now batch).map fun told =>
      (ScopeState.written told.1 told.2, told.2) := by
  rw [ScopeState.push, hbatch, ← ScopeState.applyBatch_eq_map]
  rfl

/-- A push of a batch that can be applied leaves the store that the single writes leave. -/
theorem push_of_applied (h : store.Sound) (hpopulated : store.Populated)
    (hbatch : limits.checkBatch batch = .ok ())
    (happly : (store.state scope).applyAll now batch = .ok (rows, state)) :
    push limits store scope now batch =
      (.ok (ScopeState.written rows state), (runAll (writeSingle scope now) store batch).2) := by
  have hids := checkRowId_of_checkBatch hbatch
  have hfollows : store.Follows scope (push limits store scope now batch) _ := follows_push h batch
  have hatomic : store.AllOrNothing (push limits store scope now batch) :=
    hpopulated.allOrNothing_guarded (hpopulated.allOrNothing_transact scope now _)
  have hresult := hfollows.result
  have hstate := hfollows.state
  rw [push_of_checkBatch _ hbatch, happly] at hresult hstate
  obtain ⟨-, hlast⟩ := single_writes_of_ok h hids happly
  obtain ⟨hsound, hkept, hothers⟩ := sound_single_writes h hpopulated scope now hids
  -- Both leave the same states, and so the same store.
  refine Prod.ext hresult (Store.ext_state hfollows.sound hsound hatomic.populated hkept ?_)
  intro other
  by_cases hother : other = scope
  · rw [hother, hstate, hlast]
    rfl
  · rw [hfollows.others other hother, hothers other hother]

/-- A push of a batch that cannot be applied leaves the store as it was. -/
theorem push_of_not_applied (h : store.Sound) (hpopulated : store.Populated)
    (hbatch : limits.checkBatch batch = .ok ())
    (happly : (store.state scope).applyAll now batch = .error e) :
    push limits store scope now batch = (.error e, store) := by
  have hfollows : store.Follows scope (push limits store scope now batch) _ := follows_push h batch
  have hatomic : store.AllOrNothing (push limits store scope now batch) :=
    hpopulated.allOrNothing_guarded (hpopulated.allOrNothing_transact scope now _)
  have hresult := hfollows.result
  rw [push_of_checkBatch _ hbatch, happly] at hresult
  exact Prod.ext hresult (hatomic.restored e hresult)

/-- A push is the sequence of its single writes, made at the same time of the wall clock. It
succeeds just if they all succeed, and then it leaves the same store and tells the last state of
each row that they answered. If it fails, then with the error of the first single write that fails,
and it leaves the store as it was. -/
theorem push_eq_single_writes (hreach : Reachable limits store) (scope : Scope) (now : Timestamp)
    (hbatch : limits.checkBatch batch = .ok ()) :
    let pushed := push limits store scope now batch
    let singles := runAll (writeSingle scope now) store batch
    ((∃ report, pushed.1 = .ok report) ↔ ∀ answer ∈ singles.1, ∃ row, answer = .ok row) ∧
      (∀ report, pushed.1 = .ok report → pushed.2 = singles.2 ∧
        ∃ rows, singles.1 = rows.map .ok ∧ report.changes = lastWritten rows) ∧
      ∀ e, pushed.1 = .error e → pushed.2 = store ∧
        ∃ earlier later, singles.1 = earlier ++ .error e :: later ∧
          ∀ answer ∈ earlier, ∃ row, answer = .ok row := by
  intro pushed singles
  have hstore : store.Sound := sound_of_reachable hreach
  have hpopulated : store.Populated := RunsTo.populated hreach Store.populated_empty
  have hids := checkRowId_of_checkBatch hbatch
  cases happly : (store.state scope).applyAll now batch with
  | ok told =>
    obtain ⟨rows, last⟩ := told
    have hpushed : pushed = (.ok (ScopeState.written rows last), singles.2) :=
      push_of_applied hstore hpopulated hbatch happly
    obtain ⟨hanswers, -⟩ := single_writes_of_ok hstore hids happly
    rw [hpushed, hanswers]
    refine ⟨iff_of_true ⟨_, rfl⟩ (by simp), fun report hreport => ?_, fun e he => by cases he⟩
    cases hreport
    exact ⟨rfl, rows, rfl, rfl⟩
  | error e =>
    have hpushed : pushed = (.error e, store) :=
      push_of_not_applied hstore hpopulated hbatch happly
    obtain ⟨earlier, later, hanswers, hearlier⟩ := single_writes_of_error hstore hids happly
    have hfails : ¬∀ answer ∈ singles.1, ∃ row, answer = .ok row := fun hall => by
      obtain ⟨row, hrow⟩ := hall (.error e) (by rw [hanswers]; simp)
      cases hrow
    rw [hpushed]
    refine ⟨iff_of_false (by simp) hfails, fun report hreport => ?_, fun e' he' => ?_⟩
    · cases hreport
    · cases he'
      exact ⟨rfl, earlier, later, hanswers, hearlier⟩

/-- A batch that deletes a sample row, writes it again and deletes the other one. -/
def revivingBatch : List Mutation := [.delete "b", .upsert "b" (sampleNote "back"), .delete "a"]

/-- A batch that deletes a row that is not there, between writes of the sample rows. -/
def failingBatch : List Mutation := [.upsert "a" (sampleNote "edited"), .delete "c", .delete "b"]

/-- One batch leaves what its single writes leave, though the wall clock was set back. The other one
fails as its second write fails, and is not carried out at all. -/
theorem push_eq_single_writes_sample :
    (push {} sampleStore sampleScope 500 revivingBatch).2 =
        (runAll (writeSingle sampleScope 500) sampleStore revivingBatch).2 ∧
      ((push {} sampleStore sampleScope 500 revivingBatch).2.state sampleScope).get? "b" =
        some ⟨"b", sampleNote "back", 2002, false⟩ ∧
      (push {} sampleStore sampleScope 500 failingBatch).2 = sampleStore ∧
      ∃ answers, (runAll (writeSingle sampleScope 500) sampleStore failingBatch).1 =
        .ok ⟨"a", sampleNote "edited", 2001, false⟩ :: .error (.rowNotFound "c") :: answers := by
  obtain ⟨hsucceeds, hpushed, -⟩ := push_eq_single_writes reachable_sampleStore sampleScope 500
    (show Limits.checkBatch {} revivingBatch = .ok () by decide +kernel)
  have hsingles : (runAll (writeSingle sampleScope 500) sampleStore revivingBatch).1 =
      [⟨"b", sampleNote "other", 2001, true⟩, ⟨"b", sampleNote "back", 2002, false⟩,
        ⟨"a", sampleNote "first", 2003, true⟩].map .ok := by decide +kernel
  obtain ⟨report, hreport⟩ := hsucceeds.2 (by rw [hsingles]; simp)
  obtain ⟨hstore, -⟩ := hpushed report hreport
  obtain ⟨-, -, hfailed⟩ := push_eq_single_writes reachable_sampleStore sampleScope 500
    (show Limits.checkBatch {} failingBatch = .ok () by decide +kernel)
  obtain ⟨hrestored, -⟩ := hfailed (.rowNotFound "c") (by decide +kernel)
  refine ⟨hstore, ?_, hrestored, [.ok ⟨"b", sampleNote "other", 2002, true⟩], by decide +kernel⟩
  rw [hstore]
  decide +kernel

end SyncTables

end RowSync
