/-!
# Media Types

Media types as the header of a request names them: a type, a subtype that may end in a suffix, and
parameters. The service only asks whether the content is JSON.
-/

namespace RowSync.Http

/-- A media type without its parameters, in lower case. -/
structure MediaType where
  /-- The type, before the slash. -/
  top : String
  /-- The subtype without its suffix. -/
  subtype : String
  /-- The suffix, after the last plus sign. -/
  suffix : Option String
deriving DecidableEq, Repr

namespace MediaType

/-- The characters of tokens, letters and digits apart. -/
def tokenMarks : List Char :=
  ['!', '#', '$', '%', '&', '\'', '*', '+', '-', '.', '^', '_', '\x60', '|', '~']

/-- Whether a character may stand in a token. -/
def isTokenChar (c : Char) : Bool := c.isAlphanum || tokenMarks.contains c

/-- Whether a character may stand between quotes. -/
def isQuotedChar (c : Char) : Bool := ' ' ≤ c && c ≤ '~'

/-! ## Parameters -/

/-- The places inside a list of parameters. -/
inductive Place where
  /-- Before a parameter. -/
  | gap
  /-- In the name of a parameter. -/
  | name
  /-- After the equals sign. -/
  | equals
  /-- In a value without quotes. -/
  | value
  /-- After the opening quote. -/
  | opened
  /-- In a quoted value. -/
  | quoted
  /-- After the closing quote. -/
  | closed
deriving DecidableEq, Repr

namespace Place

/-- The place after a character, if the character may stand there. A quoted value has at least one
character, which may be a quote. -/
def next (place : Place) (c : Char) : Option Place :=
  match place with
  | gap => if c = ' ' then some gap else if isTokenChar c then some name else none
  | name => if c = '=' then some equals else if isTokenChar c then some name else none
  | equals => if c = '\"' then some opened else if isTokenChar c then some value else none
  | value => if c = ';' then some gap else if isTokenChar c then some value else none
  | opened => if isQuotedChar c then some quoted else none
  | quoted => if c = '\"' then some closed else if isQuotedChar c then some quoted else none
  | closed => if c = ';' then some gap else if c = ' ' then some closed else none

/-- Whether a list of parameters may end here. -/
def mayEnd : Place → Bool
  | gap | equals | value | closed => true
  | name | opened | quoted => false

end Place

/-- Whether the characters after the first semicolon are a list of parameters. -/
def areParameters (cs : List Char) : Bool := (cs.foldlM Place.next .gap).any Place.mayEnd

/-! ## Types -/

/-- Divide a subtype at its last plus sign, unless it starts with that. -/
def splitSuffix (cs : List Char) : List Char × Option (List Char) :=
  let suffix := (cs.reverse.takeWhile (· != '+')).reverse
  let before := (cs.reverse.dropWhile (· != '+')).drop 1
  if before.isEmpty then (cs, none) else (before.reverse, some suffix)

/-- Characters as a text in lower case. -/
def lowered (cs : List Char) : String := String.ofList (cs.map Char.toLower)

/-- The media type that a header names. Only a subtype without parameters may be empty. -/
def ofHeader? (header : String) : Option MediaType :=
  let top := header.toList.takeWhile isTokenChar
  match header.toList.dropWhile isTokenChar with
  | '/' :: rest =>
    let subtype := rest.takeWhile isTokenChar
    let (base, suffix) := splitSuffix subtype
    let mediaType : MediaType := ⟨lowered top, lowered base, suffix.map lowered⟩
    match rest.dropWhile isTokenChar with
    | [] => if top.isEmpty then none else some mediaType
    | ';' :: parameters =>
      if top.isEmpty || subtype.isEmpty || !areParameters parameters then none
      else some mediaType
    | _ => none
  | _ => none

/-- Whether content of this type is JSON. -/
def isJson (mediaType : MediaType) : Bool :=
  mediaType.top == "application" &&
    (mediaType.subtype == "json" || mediaType.suffix == some "json")

end MediaType

end RowSync.Http
