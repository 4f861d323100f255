import Mathlib.Data.List.TakeWhile
import Mathlib.Data.String.Basic
import RowSync.Proofs.Requests

/-!
# Names in Paths

A name is spelled by whatever decodes to it and stays within one segment of a path
(`Http.Spells`). Every name can be spelled: percent-encoding spells it, whatever its characters
(`Http.spells_percentEncode`), and the names of tables spell themselves. The path that is made of
the segments of a resource is taken apart into these segments again (`Resource.ofTarget?_path`), so
that a request for it names this resource.
-/

namespace RowSync

/-! ## Percent-encoding -/

namespace Text

theorem hexValue?_hexDigit {n : Nat} (h : n < 16) : hexValue? (hexDigit n) = some n := by
  revert n
  decide

/-- The two digits in which a byte is written are read as the byte. -/
theorem hexByte?_hexDigit (byte : UInt8) :
    hexByte? (hexDigit (byte.toNat / 16)) (hexDigit (byte.toNat % 16)) = some byte := by
  have hlt : byte.toNat < 256 := byte.toNat_lt_size
  have hhigh : hexValue? (hexDigit (byte.toNat / 16)) = some (byte.toNat / 16) :=
    hexValue?_hexDigit (by omega)
  have hlow : hexValue? (hexDigit (byte.toNat % 16)) = some (byte.toNat % 16) :=
    hexValue?_hexDigit (by omega)
  have hsum : 16 * (byte.toNat / 16) + byte.toNat % 16 = byte.toNat := by omega
  simp [hexByte?, hexNumber?, hhigh, hlow, hsum]

/-- An escape stands for its byte. -/
theorem percentBytes_escape (byte : UInt8) (rest : List Char) :
    percentBytes
      ('%' :: hexDigit (byte.toNat / 16) :: hexDigit (byte.toNat % 16) :: rest) =
        byte :: percentBytes rest := by
  simp only [percentBytes, hexByte?_hexDigit]

/-- A character that starts no escape stands for its own bytes. -/
theorem percentBytes_cons_of_ne {c : Char} (h : c ≠ '%') (rest : List Char) :
    percentBytes (c :: rest) = String.utf8EncodeChar c ++ percentBytes rest := by
  rw [percentBytes]
  intro high low others hc
  exact absurd hc h

theorem isUnreserved_percent : isUnreserved '%' = false := by decide

/-- A character in percent-encoded text stands for the bytes of the character. -/
theorem percentBytes_percentChar (c : Char) (rest : List Char) :
    percentBytes (percentChar c ++ rest) = String.utf8EncodeChar c ++ percentBytes rest := by
  rw [percentChar]
  split
  · rename_i hplain
    refine percentBytes_cons_of_ne (fun hc => ?_) rest
    rw [hc, isUnreserved_percent] at hplain
    cases hplain
  · -- One escape for each of the bytes.
    induction String.utf8EncodeChar c with
    | nil => rfl
    | cons byte others ih =>
      simp only [List.flatMap_cons, List.cons_append, List.nil_append, percentBytes_escape, ih]

/-- A text is decoded to a name if it stands for the bytes of the name. -/
theorem percentDecode?_eq_some {text name : String}
    (h : percentBytes text.toList = name.toList.flatMap String.utf8EncodeChar) :
    percentDecode? text = some name := by
  have hbytes : (⟨(percentBytes text.toList).toArray⟩ : ByteArray) = name.toByteArray := by
    refine ByteArray.ext ?_
    rw [h, ← String.utf8Encode_toList, List.utf8Encode, List.data_toByteArray]
  rw [percentDecode?, hbytes, String.fromUTF8?, dif_pos name.isValidUTF8]
  rfl

theorem percentDecode?_percentEncode (name : String) :
    percentDecode? (percentEncode name) = some name := by
  refine percentDecode?_eq_some ?_
  rw [percentEncode, String.toList_ofList]
  induction name.toList with
  | nil => rfl
  | cons c rest ih => rw [List.flatMap_cons, percentBytes_percentChar, ih, List.flatMap_cons]

/-- A name without percent signs is decoded to itself. -/
theorem percentDecode?_self {name : String} (h : '%' ∉ name.toList) :
    percentDecode? name = some name := by
  refine percentDecode?_eq_some ?_
  induction hchars : name.toList generalizing name with
  | nil => rfl
  | cons c rest ih =>
    rw [hchars] at h
    obtain ⟨hc, hrest⟩ := List.ne_and_not_mem_of_not_mem_cons h
    have hothers := @ih (String.ofList rest) (by rwa [String.toList_ofList]) String.toList_ofList
    rw [percentBytes_cons_of_ne hc.symm, hothers, List.flatMap_cons]

end Text

namespace Http

/-! ## Spelled names -/

/-- The text stands within one segment of a path: nothing in it ends the segment or the path. -/
def IsSegment (text : String) : Prop := ∀ c ∈ text.toList, Resource.endsAuthority c = false

instance (text : String) : Decidable (IsSegment text) :=
  List.decidableBAll (fun c => Resource.endsAuthority c = false) text.toList

/-- The segment of a path stands for the name. -/
structure Spells (written name : String) : Prop where
  /-- What is written decodes to the name. -/
  decodes : Text.percentDecode? written = some name
  /-- What is written is one segment. -/
  isSegment : IsSegment written

instance (written name : String) : Decidable (Spells written name) :=
  decidable_of_iff (Text.percentDecode? written = some name ∧ IsSegment written)
    ⟨fun h => ⟨h.1, h.2⟩, fun h => ⟨h.decodes, h.isSegment⟩⟩

/-- Percent-encoding leaves no character that ends a segment. -/
theorem isSegment_percentEncode (name : String) : IsSegment (Text.percentEncode name) := by
  have hdigit : ∀ n < 16, Resource.endsAuthority (Text.hexDigit n) = false := by decide
  intro c hc
  rw [Text.percentEncode, String.toList_ofList, List.mem_flatMap] at hc
  obtain ⟨original, -, hc⟩ := hc
  rw [Text.percentChar] at hc
  split at hc
  · -- The marks that end a segment are not unreserved.
    rename_i hplain
    obtain rfl := List.mem_singleton.1 hc
    by_contra hends
    simp only [Resource.endsAuthority, Bool.not_eq_false, Bool.or_eq_true, beq_iff_eq] at hends
    rcases hends with (rfl | rfl) | rfl <;> revert hplain <;> decide
  · obtain ⟨byte, -, hc⟩ := List.mem_flatMap.1 hc
    have hlt : byte.toNat < 256 := byte.toNat_lt_size
    simp only [List.mem_cons, List.not_mem_nil, or_false] at hc
    rcases hc with rfl | rfl | rfl
    · decide
    · exact hdigit _ (by omega)
    · exact hdigit _ (by omega)

/-- Every name is spelled by its percent-encoded form. -/
theorem spells_percentEncode (name : String) : Spells (Text.percentEncode name) name :=
  ⟨Text.percentDecode?_percentEncode name, isSegment_percentEncode name⟩

/-- The name of a table spells itself. -/
theorem spells_table {scope : Scope} (h : scope.IsValid) : Spells scope.table scope.table := by
  -- None of the characters of a table name means anything in a path.
  have hother {c : Char} (hc : c ∈ scope.table.toList) (mark : Char)
      (hmark : mark ∈ ['%', '/', '?', '#']) : c ≠ mark := by
    rintro rfl
    have hname := h.table_characters c hc
    simp only [List.mem_cons, List.not_mem_nil, or_false] at hmark
    rcases hmark with rfl | rfl | rfl | rfl <;> revert hname <;> decide
  refine ⟨Text.percentDecode?_self fun hc => hother hc '%' (by decide) rfl, fun c hc => ?_⟩
  simp [Resource.endsAuthority, hother hc]

/-- A spelling of a name that is not empty is not empty. -/
theorem Spells.ne_empty {written name : String} (h : Spells written name) (hname : name ≠ "") :
    written ≠ "" := by
  rintro rfl
  have hempty : Text.percentDecode? "" = some "" := by decide
  exact hname (Option.some.inj (h.decodes.symm.trans hempty))

theorem Spells.readName_eq {written name : String} (h : Spells written name) (parameter : String) :
    readName parameter written = .ok name := by
  rw [readName, h.decodes]

/-! ## Paths -/

namespace Resource

/-- Characters without a slash are put in front of the first segment. -/
theorem splitSegments_append {segment : List Char} (h : '/' ∉ segment) (rest : List Char) :
    splitSegments (segment ++ rest) =
      (segment ++ (splitSegments rest).1, (splitSegments rest).2) := by
  induction segment with
  | nil => rfl
  | cons c others ih =>
    obtain ⟨hc, hothers⟩ := List.ne_and_not_mem_of_not_mem_cons h
    simp only [List.cons_append, splitSegments, ih hothers, if_neg hc.symm]

/-- Segments with a slash in front of each are taken apart again. -/
theorem splitSegments_flatMap {segments : List (List Char)}
    (h : ∀ segment ∈ segments, '/' ∉ segment) :
    splitSegments (segments.flatMap ('/' :: ·)) = ([], segments) := by
  induction segments with
  | nil => rfl
  | cons segment rest ih =>
    obtain ⟨hfirst, hrest⟩ := List.forall_mem_cons.1 h
    rw [List.flatMap_cons, List.cons_append, splitSegments, splitSegments_append hfirst, ih hrest]
    simp

/-- The path of a resource has its segments. -/
theorem segments?_path {resource : Resource} (h : ∀ segment ∈ resource.segments, IsSegment segment) :
    segments? resource.path = some resource.segments := by
  have hpath : resource.path.toList =
      (resource.segments.map String.toList).flatMap ('/' :: ·) := by
    simp [path, String.toList_join, List.flatMap_map]
  -- Neither does anything in the path end it, nor is there a slash within a segment.
  have hslash : ∀ segment ∈ resource.segments.map String.toList, '/' ∉ segment := by
    intro segment hsegment hmem
    obtain ⟨text, htext, rfl⟩ := List.mem_map.1 hsegment
    have hends := h text htext '/' hmem
    revert hends
    decide
  have hwhole : ∀ c ∈ (resource.segments.map String.toList).flatMap ('/' :: ·),
      (c != '?' && c != '#') := by
    intro c hc
    obtain ⟨segment, hsegment, hc⟩ := List.mem_flatMap.1 hc
    obtain ⟨text, htext, rfl⟩ := List.mem_map.1 hsegment
    rcases List.mem_cons.1 hc with rfl | hc
    · decide
    · have hends := h text htext c hc
      simp only [endsAuthority, Bool.or_eq_false_iff, beq_eq_false_iff_ne] at hends
      simp [hends]
  have hstart : targetPath resource.path.toList = resource.path.toList := by
    rw [hpath]
    cases resource.segments with
    | nil => rfl
    | cons first rest => simp
  rw [segments?, hstart, hpath, List.takeWhile_eq_self_iff.2 hwhole, splitSegments_flatMap hslash]
  simp [List.map_map, Function.comp_def]

/-- The path of a resource names the resource, if its segments do and each of them is one. A path
does not end with a slash. -/
theorem ofTarget?_path {resource : Resource} (h : ∀ segment ∈ resource.segments, IsSegment segment)
    (hlast : resource.segments.getLast? ≠ some "")
    (hsegments : ofSegments? resource.segments = some resource) :
    ofTarget? resource.path = some resource := by
  rw [ofTarget?, segments?_path h]
  simp [hlast, hsegments]

variable {table user id millis : String}

/-- The words that stand where the name of a sync table may stand. -/
def fixedWords : List String := ["raw", "changes", "sync", "replace"]

section Named

variable (htable : IsSegment table) (huser : IsSegment user)

include htable huser

theorem ofTarget?_table (hempty : user ≠ "") :
    ofTarget? (Resource.table table user).path = some (.table table user) := by
  have hword : IsSegment "synctable" := by decide
  refine ofTarget?_path ?_ ?_ ?_
  · simp [segments, htable, huser, hword]
  · simpa [segments] using hempty
  · simp [segments, ofSegments?]

theorem ofTarget?_localTable (hempty : user ≠ "") :
    ofTarget? (Resource.localTable table user).path = some (.localTable table user) := by
  have hword : IsSegment "localtable" := by decide
  refine ofTarget?_path ?_ ?_ ?_
  · simp [segments, htable, huser, hword]
  · simpa [segments] using hempty
  · simp [segments, ofSegments?]

/-- The path of a row is read as that of a row if the name of the table is no fixed word. -/
theorem ofTarget?_row (hfixed : table ∉ fixedWords) (hid : IsSegment id) (hempty : id ≠ "") :
    ofTarget? (Resource.row table user id).path = some (.row table user id) := by
  have hword : IsSegment "synctable" := by decide
  simp only [fixedWords, List.mem_cons, List.not_mem_nil, or_false, not_or] at hfixed
  refine ofTarget?_path ?_ ?_ ?_
  · simp [segments, htable, huser, hid, hword]
  · simpa [segments] using hempty
  · simp [segments, ofSegments?, hfixed]

theorem ofTarget?_localRow (hid : IsSegment id) (hempty : id ≠ "") :
    ofTarget? (Resource.localRow table user id).path = some (.localRow table user id) := by
  have hword : IsSegment "localtable" := by decide
  refine ofTarget?_path ?_ ?_ ?_
  · simp [segments, htable, huser, hid, hword]
  · simpa [segments] using hempty
  · simp [segments, ofSegments?]

theorem ofTarget?_changesSince (hmillis : IsSegment millis) (hempty : millis ≠ "") :
    ofTarget? (Resource.changesSince table user millis).path =
      some (.changesSince table user millis) := by
  have hword : IsSegment "synctable" := by decide
  have hchanges : IsSegment "changes" := by decide
  refine ofTarget?_path ?_ ?_ ?_
  · simp [segments, htable, huser, hmillis, hword, hchanges]
  · simpa [segments] using hempty
  · simp [segments, ofSegments?]

end Named

end Resource

/-! ## Requests by path -/

/-- The request asks for a resource by the path of it, with a method. -/
structure Request.IsFor (request : Request) (method : Method) (resource : Resource) : Prop where
  /-- The method of the request. -/
  method : request.method = method
  /-- The target of the request. -/
  target : request.target = resource.path

instance (request : Request) (method : Method) (resource : Resource) :
    Decidable (request.IsFor method resource) :=
  decidable_of_iff (request.method = method ∧ request.target = resource.path)
    ⟨fun h => ⟨h.1, h.2⟩, fun h => ⟨h.method, h.target⟩⟩

namespace Request

/-- The request is for a resource of the scope, by a path that spells the user. -/
def InScope (request : Request) (method : Method) (scope : Scope)
    (resource : String → String → Resource) : Prop :=
  ∃ userText, Spells userText scope.user ∧ request.IsFor method (resource scope.table userText)

/-- The request is for a row of the scope, by a path that spells the user and the id. -/
def OfRow (request : Request) (method : Method) (scope : Scope) (id : RowId)
    (resource : String → String → String → Resource) : Prop :=
  ∃ idText, Spells idText id ∧ request.InScope method scope (resource · · idText)

/-- The request asks for an action, and not just for the head of the answer. -/
structure Asks (request : Request) (action : Action) : Prop where
  /-- What is asked. -/
  asked : request.asked? = some action
  /-- The whole of the answer is asked for. -/
  whole : request.method ≠ .head

variable {request : Request} {scope : Scope} {userText idText : String} {id : RowId}

/-- What is asked is what can be read of the resource whose path is the target. -/
theorem IsFor.asked?_eq {method : Method} {resource : Resource} (h : request.IsFor method resource)
    (hhead : method ≠ .head) (hpath : Resource.ofTarget? resource.path = some resource) :
    request.asked? = (request.action? method resource).bind Except.toOption := by
  have hmethod : request.readMethod = method := by
    rw [readMethod, h.method]
    cases method with
    | head => exact absurd rfl hhead
    | get | post | delete | options | other => rfl
  rw [asked?, h.target, hpath, hmethod, Option.bind_some]
  cases request.action? method resource with
  | none => rfl
  | some reading => cases reading <;> rfl

/-- A request for a resource asks for the action that is read of it. -/
theorem IsFor.asks {method : Method} {resource : Resource} {action : Action}
    (h : request.IsFor method resource) (hhead : method ≠ .head)
    (hpath : Resource.ofTarget? resource.path = some resource)
    (haction : request.action? method resource = some (.ok action)) : request.Asks action := by
  refine ⟨?_, h.method.symm ▸ hhead⟩
  rw [h.asked?_eq hhead hpath, haction]
  rfl

theorem InScope.method_ne {method avoided : Method} {resource : String → String → Resource}
    (h : request.InScope method scope resource) (hne : method ≠ avoided) :
    request.method ≠ avoided := by
  obtain ⟨userText, -, hfor⟩ := h
  rwa [hfor.method]

section Scope

variable (hscope : scope.IsValid)

include hscope

theorem scopeOf_eq : scopeOf (scope.table, scope.user) = .ok scope := by
  rw [scopeOf, readScope, Scope.ofNames_eq_ok_iff.2 ⟨rfl, hscope⟩]
  rfl

theorem readTable_eq (huser : Spells userText scope.user) :
    readTable scope.table userText = .ok (scope.table, scope.user) := by
  rw [readTable, (spells_table hscope).readName_eq, huser.readName_eq]
  rfl

theorem userText_ne_empty (huser : Spells userText scope.user) : userText ≠ "" := by
  refine huser.ne_empty fun hempty => ?_
  have hlength := hscope.user_length.1
  rw [hempty] at hlength
  revert hlength
  decide

section Named

variable {method : Method} {resource : Resource}
  (hpath : Resource.ofTarget? resource.path = some resource) (huser : Spells userText scope.user)

include hpath huser

/-- A request with a content that is read as a flat row asks for what is done with the row, if the
content decodes to one. -/
theorem IsFor.asked?_of_content (h : request.IsFor method resource) (hhead : method ≠ .head)
    {toAction : Scope → FlatRow → Action}
    (hread : request.action? method resource = some do
      let table ← readTable scope.table userText
      let row ← request.decode FlatRow.decode
      return toAction (← scopeOf table) row) :
    request.asked? = (request.decode FlatRow.decode).toOption.map (toAction scope) := by
  rw [h.asked?_eq hhead hpath, hread]
  -- The scope is read after the content.
  cases hdecode : request.decode FlatRow.decode with
  | error e =>
    simp only [readTable_eq hscope huser, bind, Except.bind]
    rfl
  | ok row =>
    simp only [readTable_eq hscope huser, scopeOf_eq hscope, bind, Except.bind]
    rfl

/-- A request with the id of a row in its path asks for what is done with this id. -/
theorem IsFor.asks_of_id (h : request.IsFor method resource) (hhead : method ≠ .head)
    (hid : Spells idText id) {parameter : String} {toAction : Scope → RowId → Action}
    (hread : request.action? method resource = some do
      let table ← readTable scope.table userText
      let id ← readName parameter idText
      return toAction (← scopeOf table) id) :
    request.Asks (toAction scope id) := by
  refine h.asks hhead hpath (hread.trans ?_)
  simp only [readTable_eq hscope huser, hid.readName_eq, scopeOf_eq hscope, bind, Except.bind]
  rfl

end Named

/-- Posting to a sync table asks to put the row that the content decodes to, if it does. -/
theorem InScope.asked?_put (h : request.InScope .post scope .table) :
    request.asked? = (request.decode FlatRow.decode).toOption.map fun row =>
      .sync scope (.put row.id row.fields) := by
  obtain ⟨userText, huser, hfor⟩ := h
  have hpath := Resource.ofTarget?_table (spells_table hscope).isSegment huser.isSegment
    (userText_ne_empty hscope huser)
  exact hfor.asked?_of_content hscope hpath huser (by decide) rfl

/-- Posting to a local table asks to put the row that the content decodes to, if it does. -/
theorem InScope.asked?_putLocal (h : request.InScope .post scope .localTable) :
    request.asked? = (request.decode FlatRow.decode).toOption.map fun row =>
      .onLocal scope (.put row) := by
  obtain ⟨userText, huser, hfor⟩ := h
  have hpath := Resource.ofTarget?_localTable (spells_table hscope).isSegment huser.isSegment
    (userText_ne_empty hscope huser)
  exact hfor.asked?_of_content hscope hpath huser (by decide) rfl

/-- Getting the changes since the beginning asks for them. -/
theorem InScope.asks_changesSince_zero
    (h : request.InScope .get scope (.changesSince · · "0")) :
    request.Asks (.sync scope (.changesSince 0)) := by
  obtain ⟨userText, huser, hfor⟩ := h
  have hmillis : readName "millis" "0" = .ok "0" := by decide
  have htime : timeOf "0" = .ok 0 := by decide
  refine hfor.asks (by decide) (Resource.ofTarget?_changesSince (spells_table hscope).isSegment
    huser.isSegment (by decide) (by decide)) ?_
  simp only [action?, readTable_eq hscope huser, hmillis, htime, scopeOf_eq hscope, bind,
    Except.bind]
  rfl

/-- A request for a row of a sync table asks for the row with the id that is spelled, or to delete
it. The third segment of the path is the id by these methods. -/
theorem OfRow.asks (hempty : id ≠ "") (hfixed : scope.table ∉ Resource.fixedWords) :
    (request.OfRow .get scope id .row → request.Asks (.sync scope (.row id))) ∧
    (request.OfRow .delete scope id .row → request.Asks (.sync scope (.delete id))) := by
  have hpath {userText idText : String} (huser : Spells userText scope.user)
      (hid : Spells idText id) := Resource.ofTarget?_row (spells_table hscope).isSegment
    huser.isSegment hfixed hid.isSegment (hid.ne_empty hempty)
  constructor
  · rintro ⟨idText, hid, userText, huser, hfor⟩
    exact hfor.asks_of_id hscope (hpath huser hid) huser (by decide) hid rfl
  · rintro ⟨idText, hid, userText, huser, hfor⟩
    exact hfor.asks_of_id hscope (hpath huser hid) huser (by decide) hid rfl

/-- A request for a row of a local table asks for the row with the id that is spelled, or to delete
it. -/
theorem OfRow.asksLocal (hempty : id ≠ "") :
    (request.OfRow .get scope id .localRow → request.Asks (.onLocal scope (.row id))) ∧
    (request.OfRow .delete scope id .localRow → request.Asks (.onLocal scope (.delete id))) := by
  have hpath {userText idText : String} (huser : Spells userText scope.user)
      (hid : Spells idText id) := Resource.ofTarget?_localRow (spells_table hscope).isSegment
    huser.isSegment hid.isSegment (hid.ne_empty hempty)
  constructor
  · rintro ⟨idText, hid, userText, huser, hfor⟩
    exact hfor.asks_of_id hscope (hpath huser hid) huser (by decide) hid rfl
  · rintro ⟨idText, hid, userText, huser, hfor⟩
    exact hfor.asks_of_id hscope (hpath huser hid) huser (by decide) hid rfl

end Scope

end Request

end Http

end RowSync
