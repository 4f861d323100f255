import RowSync.Proofs.Failures
import RowSync.Proofs.Http.Tables
import RowSync.Proofs.Names

/-!
# What Requests Ask For

A request asks for an action, or it cannot be read and does not reach the backend
(`Request.asked?`). The service after a request is the one after the action
(`Service.answer_snd_of_asked?`), so that what is known of calls on backends is known of requests. A
call that is asked for has a baseline in range and is on a scope with valid names, since both are
checked when the request is read.
-/

namespace RowSync

/-- The scope that a table is of. -/
def TableRef.scope : TableRef → Scope
  | .sync scope | .onLocal scope => scope

namespace Http

/-- The scope that the names in a path stand for is valid. -/
theorem isValid_of_scopeNamed? {name user : String} {scope : Scope}
    (h : scopeNamed? name user = some scope) : scope.IsValid := by
  have hread : (readTable name user >>= scopeOf) = .ok scope := by
    rw [scopeNamed?] at h
    cases hnames : readTable name user >>= scopeOf with
    | ok found =>
      rw [hnames] at h
      cases h
      rfl
    | error failure =>
      rw [hnames] at h
      cases h
  obtain ⟨⟨table, owner⟩, -, hscope⟩ := bind_eq_ok_iff.1 hread
  rw [scopeOf, readScope] at hscope
  cases hchecked : Scope.ofNames table owner with
  | error e =>
    rw [hchecked] at hscope
    cases hscope
  | ok found =>
    rw [hchecked] at hscope
    cases hscope
    exact (Scope.ofNames_eq_ok_iff.1 hchecked).2

namespace Request

variable {request : Request} {action : Action} {scope : Scope}

/-- What a request asks for, if it can be read. -/
def asked? (request : Request) : Option Action :=
  match (Resource.ofTarget? request.target).bind (request.action? request.readMethod) with
  | some (.ok action) => some action
  | _ => none

theorem exists_action?_of_asked? (h : request.asked? = some action) :
    ∃ resource, Resource.ofTarget? request.target = some resource ∧
      request.action? request.readMethod resource = some (.ok action) := by
  rw [asked?] at h
  split at h
  · rename_i hread
    cases h
    exact Option.bind_eq_some_iff.1 hread
  · cases h

/-- A call on a sync table that is asked for has a baseline in range. -/
theorem inRange_of_asked? {call : SyncCall} (h : request.asked? = some (.sync scope call)) :
    call.InRange := by
  obtain ⟨resource, -, haction⟩ := exists_action?_of_asked? h
  have htable : some (.sync scope) = resource.table? := asksOf_action? haction _ rfl
  have hsync : resource.isSyncTable := by
    cases resource with
    | root | health => cases htable
    | localTable name user | localRow name user _ =>
      obtain ⟨_, -, hlocal⟩ := Option.map_eq_some_iff.1 htable.symm
      cases hlocal
    | _ => rfl
  obtain ⟨_, _, heq, hrange⟩ := asksSync_action? hsync haction _ rfl
  cases heq
  exact hrange

/-- A call that is asked for is on a table with a valid scope. -/
theorem isValid_of_asked? {ref : TableRef} (h : request.asked? = some action)
    (hon : action.table? = some ref) : ref.scope.IsValid := by
  obtain ⟨resource, -, haction⟩ := exists_action?_of_asked? h
  have htable : resource.table? = some ref := (asksOf_action? haction action rfl).symm.trans hon
  -- The table of a resource is the one of the scope that its names stand for.
  cases resource with
  | root | health => cases htable
  | localTable name user | localRow name user _ | snapshot name user | changes name user
  | changesSince name user _ | exchange name user _ | replacement name user | table name user
  | row name user _ | claimedRow name user _ _ =>
    obtain ⟨found, hfound, rfl⟩ := Option.map_eq_some_iff.1 htable
    exact isValid_of_scopeNamed? hfound

end Request

end Http

namespace Service

open Http

variable {request : Request} {action : Action}

theorem answerAs_of_asked? (h : request.asked? = some action) (service : Service)
    (now : Timestamp) :
    service.answerAs request.readMethod now request = service.perform now action := by
  obtain ⟨resource, hresource, haction⟩ := Request.exists_action?_of_asked? h
  simp only [answerAs, hresource, haction]

/-- A request that is not just for the head is answered by doing what it asks for. -/
theorem answer_of_asked? (h : request.asked? = some action) (hhead : request.method ≠ .head)
    (service : Service) (now : Timestamp) :
    service.answer now request = service.perform now action := by
  rw [← answerAs_of_asked? h, answer, Request.readMethod]
  obtain ⟨resource, -, haction⟩ := Request.exists_action?_of_asked? h
  rw [Request.readMethod] at haction
  cases hcase : request.method with
  | head => exact absurd hcase hhead
  | options =>
    rw [hcase, Request.action?_options] at haction
    cases haction
  | get | post | delete | other => rfl

/-- A request that is answered with a creation asks for something. -/
theorem exists_asked?_of_status {service : Service} {now : Timestamp}
    (h : (service.answer now request).1.status = 201) : ∃ action, request.asked? = some action := by
  rw [← Option.isSome_iff_exists, ← Option.ne_none_iff_isSome]
  intro hasked
  -- What cannot be read is answered with a failure, or with the options alone.
  have hread : (service.answerAs request.readMethod now request).1.status ≠ 201 := by
    rw [Request.asked?] at hasked
    rw [answerAs]
    cases hresource : Resource.ofTarget? request.target with
    | none => exact (by decide : 404 ≠ 201)
    | some resource =>
      rw [hresource, Option.bind_some] at hasked
      dsimp only
      cases haction : request.action? request.readMethod resource with
      | none => exact (by decide : 405 ≠ 201)
      | some reading =>
        rw [haction] at hasked
        cases reading with
        | ok action => cases hasked
        | error failure =>
          have hfailure : 400 ≤ failure.answer.status := of_decide_eq_true failure.isFailure_answer
          dsimp only
          omega
  cases hmethod : request.method with
  | options =>
    simp only [answer, hmethod] at h
    revert h
    decide
  | head | get | post | delete | other =>
    simp only [answer, hmethod] at h
    simp only [Request.readMethod, hmethod] at hread
    exact hread h

theorem answerAs_snd_of_asked?_eq_none (h : request.asked? = none) (service : Service)
    (now : Timestamp) : (service.answerAs request.readMethod now request).2 = service := by
  rw [answerAs]
  cases hresource : Resource.ofTarget? request.target with
  | none => rfl
  | some resource =>
    dsimp only
    cases haction : request.action? request.readMethod resource with
    | none => rfl
    | some reading =>
      cases reading with
      | error failure => rfl
      | ok action =>
        rw [Request.asked?, hresource, Option.bind_some, haction] at h
        cases h

/-- The service after a request is the one after answering it by the method by which it is read. -/
theorem answer_snd (service : Service) (now : Timestamp) (request : Request) :
    (service.answer now request).2 = (service.answerAs request.readMethod now request).2 := by
  cases hmethod : request.method with
  | options =>
    -- No resource has that method, so that nothing is done either way.
    have hread : request.readMethod = .options := by rw [Request.readMethod, hmethod]
    simp only [answer, hmethod, hread, answerAs, Request.action?_options]
    split <;> rfl
  | head | get | post | delete | other =>
    simp only [answer, Request.readMethod, hmethod]

/-- A request leaves the service as what it asks for does. -/
theorem answer_snd_of_asked? (h : request.asked? = some action) (service : Service)
    (now : Timestamp) : (service.answer now request).2 = (service.perform now action).2 := by
  rw [answer_snd, answerAs_of_asked? h]

/-- A request that asks for nothing leaves the service as it is. -/
theorem answer_snd_of_asked?_eq_none (h : request.asked? = none) (service : Service)
    (now : Timestamp) : (service.answer now request).2 = service := by
  rw [answer_snd, answerAs_snd_of_asked?_eq_none h]

end Service

end RowSync
