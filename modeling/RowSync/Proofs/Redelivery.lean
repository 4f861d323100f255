import RowSync.Proofs.ClaimedEdits

/-!
# Late and Repeated Delivery

Edits with claimed times may be delivered late or more than once. Once an edit was taken, no edit of
its row with an earlier claim is, and delivering it again makes no difference to the content of the
row, whatever happened in between (`SyncTables.redelivery_harmless`). The reason is that the row is
stored at a time that is not behind the claim, and that the time of a row only goes up. So if the
edit is let through again, its row is still the one that it wrote, and writing it again makes the
same content.
-/

namespace RowSync

/-- Making a change to a content twice is making it once. -/
theorem Mutation.effect_effect (mutation : Mutation) (content : Option (Payload × Bool)) :
    mutation.effect (mutation.effect content) = mutation.effect content := by
  cases mutation with
  | upsert id payload => rfl
  | delete id => cases content <;> rfl

namespace ScopeState

variable {limits : Limits} {now claim : Timestamp} {state : ScopeState} {row : Row} {id : RowId}
  {mutation : Mutation}

/-- An edit of a row that is there fails, or is dropped since the row is ahead of the claim, or is
taken since it is not. -/
theorem edit_cases (hsound : state.Sound) (limits : Limits) (now claim : Timestamp)
    (hget : state.get? mutation.rowId = some row) :
    (∃ e, state.edit limits now mutation.rowId claim (fun state => state.apply claim mutation) =
      .error e) ∨
    (claim < row.modifiedAt ∧
      state.edit limits now mutation.rowId claim (fun state => state.apply claim mutation) =
        .ok (.stale row, state)) ∨
    ∃ row', row.modifiedAt ≤ claim ∧
      state.edit limits now mutation.rowId claim (fun state => state.apply claim mutation) =
        .ok (.applied row', state.put row') ∧
      row'.id = mutation.rowId ∧ some row'.content = mutation.effect (some row.content) := by
  -- The checks come first, then the row decides, and then timestamps may be exhausted.
  cases hid : checkRowId mutation.rowId with
  | error e =>
    left
    rw [edit, hid]
    exact ⟨e, rfl⟩
  | ok _ =>
    cases hclaim : limits.checkClaim claim now with
    | error e =>
      left
      rw [edit, hid, hclaim]
      exact ⟨e, rfl⟩
    | ok _ =>
      rw [edit_of_get? (fun state => state.apply claim mutation) hid hclaim hget]
      by_cases hle : row.modifiedAt ≤ claim
      · rw [if_pos hle]
        cases happly : state.apply claim mutation with
        | error e => exact .inl ⟨e, rfl⟩
        | ok written =>
          obtain ⟨hid', hstate, -, -, hcontent⟩ := apply_eq_ok hsound happly
          rw [hget] at hcontent
          right; right
          exact ⟨written.1, hle, by rw [← hstate]; rfl, hid', hcontent⟩
      · rw [if_neg hle]
        exact .inr (.inl ⟨UInt64.not_le.1 hle, rfl⟩)

end ScopeState

namespace SyncTables

variable {limits : Limits} {start store : Store} {scope : Scope} {now claim : Timestamp}
  {write : Mutation} {row : Row}

/-- An edit of a row that is there fails and changes nothing, or is dropped and changes nothing
since the row is ahead of the claim, or is taken since the row is not. -/
theorem perform_claiming_cases (hsound : store.Sound) (limits : Limits) (now claim : Timestamp)
    (hget : (store.state scope).get? write.rowId = some row) :
    (∃ e, (perform limits store scope now (.claiming claim write)).1 = .error e ∧
      (perform limits store scope now (.claiming claim write)).2.state scope =
        store.state scope) ∨
    (claim < row.modifiedAt ∧
      (perform limits store scope now (.claiming claim write)).1 = .ok (.outcome (.stale row)) ∧
      (perform limits store scope now (.claiming claim write)).2.state scope =
        store.state scope) ∨
    ∃ row', row.modifiedAt ≤ claim ∧
      (perform limits store scope now (.claiming claim write)).2.state scope =
        (store.state scope).put row' ∧
      row'.id = write.rowId ∧ some row'.content = write.effect (some row.content) := by
  have hfollows : store.Follows scope (perform limits store scope now (.claiming claim write)) _ :=
    follows_perform hsound _
  rw [hfollows.result, hfollows.state, ScopeState.perform_claiming]
  have hstate : (store.state scope).Sound := (hsound scope).state
  rcases ScopeState.edit_cases hstate limits now claim hget with
    ⟨e, hedit⟩ | ⟨hlt, hedit⟩ | ⟨row', hle, hedit, hid, hcontent⟩
  · rw [hedit]
    exact .inl ⟨e, rfl, rfl⟩
  · rw [hedit]
    exact .inr (.inl ⟨hlt, rfl, rfl⟩)
  · rw [hedit]
    exact .inr (.inr ⟨row', hle, rfl, hid, hcontent⟩)

/-- After an edit was taken, its row was written at the claim or later, with a content that the edit
would make again. At any later point the row is there, as it was or written later. -/
theorem row_after_edit (hsound : start.Sound)
    (hfirst : (perform limits start scope now (.claiming claim write)).1 =
      .ok (.outcome (.applied row)))
    (hrun : RunsTo limits (perform limits start scope now (.claiming claim write)).2 store) :
    claim ≤ row.modifiedAt ∧ write.effect (some row.content) = some row.content ∧
      ∃ row', (store.state scope).get? write.rowId = some row' ∧
        (row' = row ∨ row.modifiedAt < row'.modifiedAt) := by
  have hafter : (perform limits start scope now (.claiming claim write)).2.Sound :=
    (follows_perform hsound _).sound
  obtain ⟨-, hrange, happly⟩ := apply_of_perform hsound hfirst
  obtain ⟨hid, hstate, -, -, hcontent⟩ := ScopeState.apply_eq_ok (hsound scope).state happly
  have hget : ((perform limits start scope now (.claiming claim write)).2.state scope).get?
      write.rowId = some row := by
    rw [hstate, ScopeState.get?_put, if_pos hid.symm]
  refine ⟨ScopeState.le_of_nextTime (ScopeState.nextTime_of_apply happly) hrange, ?_, ?_⟩
  · rw [hcontent, Mutation.effect_effect]
  · exact (hrun.growsTo hafter scope).exists_get? (hafter scope).state hget

/-- Late and repeated delivery of edits is harmless. At any point after an edit was taken, an edit
of the same row with an earlier claim is not taken and changes nothing in the scope, and the edit
itself, when delivered again, leaves the content of the row as it is, whatever is answered. -/
theorem redelivery_harmless (hreach : Reachable limits start)
    (hfirst : (perform limits start scope now (.claiming claim write)).1 =
      .ok (.outcome (.applied row)))
    (hrun : RunsTo limits (perform limits start scope now (.claiming claim write)).2 store) :
    (∀ (late : Mutation) (claim' now' : Timestamp), late.rowId = write.rowId → claim' < claim →
      (∀ told, (perform limits store scope now' (.claiming claim' late)).1 ≠
        .ok (.outcome (.applied told))) ∧
      (perform limits store scope now' (.claiming claim' late)).2.state scope =
        store.state scope) ∧
    ∀ now', (((perform limits store scope now' (.claiming claim write)).2.state scope).get?
        write.rowId).map Row.content =
      ((store.state scope).get? write.rowId).map Row.content := by
  have hstart : start.Sound := sound_of_reachable hreach
  have hstore : store.Sound := hrun.sound (follows_perform hstart _).sound
  obtain ⟨hle, hcontent, row', hget, hrow⟩ := row_after_edit hstart hfirst hrun
  constructor
  · intro late claim' now' hid hlt
    -- The row is at the claim that was taken or after it, and so ahead of the earlier one.
    have hahead : claim' < row'.modifiedAt := by
      refine UInt64.lt_of_lt_of_le hlt (UInt64.le_trans hle ?_)
      rcases hrow with rfl | hlater
      · exact UInt64.le_refl _
      · exact UInt64.le_of_lt hlater
    rw [← hid] at hget
    rcases perform_claiming_cases hstore limits now' claim' hget with
      ⟨e, hresult, hstate⟩ | ⟨-, hresult, hstate⟩ | ⟨_, hbehind, -⟩
    · refine ⟨fun told h => ?_, hstate⟩
      rw [hresult] at h
      cases h
    · refine ⟨fun told h => ?_, hstate⟩
      rw [hresult] at h
      cases h
    · exact absurd hahead (UInt64.not_lt.2 hbehind)
  · intro now'
    rcases perform_claiming_cases hstore limits now' claim hget with
      ⟨_, -, hstate⟩ | ⟨-, -, hstate⟩ | ⟨again, hbehind, hstate, hid, hagain⟩
    · rw [hstate]
    · rw [hstate]
    · -- The row is not ahead of the claim, and so it was not written since.
      have hsame : row' = row := by
        rcases hrow with hsame | hlater
        · exact hsame
        · have hle' : row'.modifiedAt ≤ row.modifiedAt := UInt64.le_trans hbehind hle
          exact absurd hlater (UInt64.not_lt.2 hle')
      subst hsame
      rw [hstate, ScopeState.get?_put, if_pos hid.symm, hget, Option.map_some, Option.map_some,
        hagain, hcontent]

/-- An edit with a claimed time. -/
def sampleEdit : Mutation := .upsert "c" (sampleNote "edited")

/-- A store in which the edit was taken, and after which another row was written when the wall clock
had gone back to zero. -/
def editedStore : Store :=
  (perform {} (perform {} sampleStore sampleScope 2500 (.claiming 2500 sampleEdit)).2 sampleScope 0
    (.put "b" (sampleNote "again"))).2

/-- A deletion with an earlier claim is not taken; the edit itself is taken once more, and its row
keeps its content. -/
theorem redelivery_harmless_sample :
    (∀ told, (perform {} editedStore sampleScope 9000 (.claiming 2400 (.delete "c"))).1 ≠
      .ok (.outcome (.applied told))) ∧
    (perform {} editedStore sampleScope 9000 (.claiming 2500 sampleEdit)).1 =
      .ok (.outcome (.applied ⟨"c", sampleNote "edited", 2502, false⟩)) ∧
    (((perform {} editedStore sampleScope 9000 (.claiming 2500 sampleEdit)).2.state
      sampleScope).get? "c").map Row.content = some (sampleNote "edited", false) := by
  have hfirst : (perform {} sampleStore sampleScope 2500 (.claiming 2500 sampleEdit)).1 =
      .ok (.outcome (.applied ⟨"c", sampleNote "edited", 2500, false⟩)) := by rfl
  have hrun : RunsTo {} (perform {} sampleStore sampleScope 2500 (.claiming 2500 sampleEdit)).2
      editedStore :=
    .call sampleScope 0 (.put "b" (sampleNote "again")) .refl
  obtain ⟨hlate, hagain⟩ := redelivery_harmless reachable_sampleStore hfirst hrun
  obtain ⟨hdropped, -⟩ := hlate (.delete "c") 2400 9000 rfl (by decide)
  exact ⟨hdropped, rfl, hagain 9000⟩

end SyncTables

end RowSync
