import RowSync.Proofs.Database.Isolation
import RowSync.Proofs.Http.Action

/-!
# The Tables of Requests

Which table a request is on (`Request.table?`), known from its path: the fixed words tell whether
that is a sync table or a local one, and the names tell the scope. What is read of a request is a
call on this table, or it is no call at all (`Request.asksOf_action?`).
-/

namespace RowSync.Http

/-- The scope that the names in a path stand for, if they can be read and are valid. -/
def scopeNamed? (name user : String) : Option Scope :=
  (readTable name user >>= scopeOf).toOption

/-- The table that a resource is, or is a part or a row of. -/
def Resource.table? : Resource → Option TableRef
  | .root | .health => none
  | .localTable name user | .localRow name user _ => (scopeNamed? name user).map .onLocal
  | .snapshot name user | .changes name user | .changesSince name user _
  | .exchange name user _ | .replacement name user | .table name user | .row name user _
  | .claimedRow name user _ _ => (scopeNamed? name user).map .sync

/-- The table that a request is on, whatever is asked of it. -/
def Request.table? (request : Request) : Option TableRef :=
  (Resource.ofTarget? request.target).bind Resource.table?

/-- The table that an action is a call on. -/
def Action.table? : Action → Option TableRef
  | .greet | .report => none
  | .sync scope _ => some (.sync scope)
  | .onLocal scope _ => some (.onLocal scope)

/-- What is read, if anything, is a call on the table, or no call if there is no table. -/
def AsksOf (table? : Option TableRef) (reading : Reading Action) : Prop :=
  ∀ action, reading = .ok action → action.table? = table?

theorem asksOf_pure (action : Action) : AsksOf action.table? (pure action) := by
  intro read hread
  cases hread
  rfl

section Reading

variable {α : Type} {table? : Option TableRef} {kind : Scope → TableRef}

/-- Reading another part of the request does not change what it is on. -/
theorem asksOf_bind {part : Reading α} {next : α → Reading Action}
    (h : ∀ value, AsksOf table? (next value)) : AsksOf table? (part >>= next) := by
  intro action haction
  obtain ⟨value, -, hnext⟩ := bind_eq_ok_iff.1 haction
  exact h value action hnext

/-- Once the scope is read, the table is the one of that scope. -/
theorem asksOf_scope {table : String × String} {next : Scope → Reading Action}
    (h : ∀ scope, AsksOf (some (kind scope)) (next scope)) :
    AsksOf ((scopeOf table).toOption.map kind) (scopeOf table >>= next) := by
  intro action haction
  obtain ⟨scope, hscope, hnext⟩ := bind_eq_ok_iff.1 haction
  rw [hscope]
  exact h scope action hnext

/-- Once the names are read, the table is known from them. -/
theorem asksOf_names {name user : String} {next : String × String → Reading Action}
    (h : ∀ table, AsksOf ((scopeOf table).toOption.map kind) (next table)) :
    AsksOf ((scopeNamed? name user).map kind) (readTable name user >>= next) := by
  intro action haction
  obtain ⟨table, htable, hnext⟩ := bind_eq_ok_iff.1 haction
  rw [scopeNamed?, htable]
  exact h table action hnext

end Reading

namespace Request

variable {request : Request} {method : Method} {resource : Resource}

/-- What is asked of a resource, with whatever method, is on the table of the resource. -/
theorem asksOf_action? {reading : Reading Action}
    (h : request.action? method resource = some reading) : AsksOf resource.table? reading := by
  -- Each method reads the names first and the scope in the end, with other parts between and after.
  cases resource with
  | root | health =>
    dsimp only [action?] at h
    split at h <;> cases h
    exact asksOf_pure _
  | localTable name user =>
    dsimp only [action?] at h
    split at h <;> cases h
    · exact asksOf_names fun _ => asksOf_scope fun _ => asksOf_pure _
    · exact asksOf_names fun _ => asksOf_bind fun _ => asksOf_scope fun _ => asksOf_pure _
  | localRow name user id =>
    dsimp only [action?] at h
    split at h <;> cases h
    · exact asksOf_names fun _ => asksOf_bind fun _ => asksOf_scope fun _ => asksOf_pure _
    · exact asksOf_names fun _ => asksOf_bind fun _ => asksOf_scope fun _ => asksOf_pure _
  | snapshot name user =>
    dsimp only [action?] at h
    split at h <;> cases h
    exact asksOf_names fun _ => asksOf_scope fun _ => asksOf_pure _
  | changes name user | replacement name user =>
    dsimp only [action?] at h
    split at h <;> cases h
    exact asksOf_names fun _ => asksOf_bind fun _ => asksOf_scope fun _ => asksOf_pure _
  | changesSince name user millis =>
    dsimp only [action?] at h
    split at h <;> cases h
    exact asksOf_names fun _ => asksOf_bind fun _ => asksOf_scope fun _ => asksOf_bind fun _ =>
      asksOf_pure _
  | exchange name user millis | claimedRow name user key millis =>
    dsimp only [action?] at h
    split at h <;> cases h
    exact asksOf_names fun _ => asksOf_bind fun _ => asksOf_bind fun _ => asksOf_scope fun _ =>
      asksOf_bind fun _ => asksOf_pure _
  | table name user =>
    dsimp only [action?] at h
    split at h <;> cases h
    · exact asksOf_names fun _ => asksOf_scope fun _ => asksOf_pure _
    · exact asksOf_names fun _ => asksOf_bind fun _ => asksOf_scope fun _ => asksOf_pure _
  | row name user key =>
    dsimp only [action?] at h
    split at h <;> cases h
    · exact asksOf_names fun _ => asksOf_bind fun _ => asksOf_scope fun _ => asksOf_pure _
    · exact asksOf_names fun _ => asksOf_bind fun _ => asksOf_scope fun _ => asksOf_pure _
    · exact asksOf_names fun _ => asksOf_bind fun _ => asksOf_bind fun _ => asksOf_scope fun _ =>
        asksOf_bind fun _ => asksOf_pure _

end Request

end RowSync.Http
