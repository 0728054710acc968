import Switchboard.Route.Path

/-!
# Switchboard.Route.Tree

A tree of paths that share their beginnings.  A text node stands for a
stretch of literal characters, as long as no path ends in it and no two paths
part; below it go on at most one branch for every character, and at most one
parameter or wildcard.

`Tree.find?` reads a request's path down the tree.  Literal branches are tried
first; where they miss, the search goes back to the last place with a
parameter or a wildcard.  One slash at the end is a special case: a request
that would match a path with that slash put on or taken off is refused, and
then nothing less literal is tried.
-/

namespace Switchboard.Route

/-! ## Pieces -/

/-- A part of a path: literal characters, or what a request fills in. -/
inductive Piece where
  | text (chars : List Char)
  | parameter
  | wildcard
  deriving DecidableEq

namespace Piece

def ofSegment : List Char → Piece
  | ':' :: _ => .parameter
  | '*' :: _ => .wildcard
  | cs => .text cs

/-- Put a piece in front of others.  Literal characters run together, and
none at all are no piece. -/
def onto : Piece → List Piece → List Piece
  | .text cs, .text ds :: rest => .text (cs ++ ds) :: rest
  | .text [], rest => rest
  | p, rest => p :: rest

/-- The pieces of a path. -/
def ofPath (path : String) : List Piece :=
  (List.intersperse (.text ['/']) ((segments path).map ofSegment)).foldr onto []

end Piece

/-! ## Trees -/

/-- A node with what lies below it.  A value stands where a path ends. -/
inductive Node (α : Type) where
  | text (label : List Char) (value : Option α) (branches : List (Node α))
  | parameter (value : Option α) (branches : List (Node α))
  | wildcard (value : α)

/-- The nodes at which paths begin. -/
abbrev Tree (α : Type) := List (Node α)

variable {α : Type}

namespace Node

/-- The nodes for a path of which nothing is there yet. -/
def ofPieces (v : α) : List Piece → Node α
  | [] => .text [] (some v) []
  | [.text cs] => .text cs (some v) []
  | .text cs :: rest => .text cs none [ofPieces v rest]
  | [.parameter] => .parameter (some v) []
  | .parameter :: rest => .parameter none [ofPieces v rest]
  | .wildcard :: _ => .wildcard v

/-- Does a node stand where a piece would go? -/
def standsFor : Node α → Piece → Bool
  | .text (c :: _) _ _, .text (d :: _) => c = d
  | .parameter _ _, .parameter => true
  | .wildcard _, .wildcard => true
  | _, _ => false

end Node

/-- What two texts have in common from their beginnings on. -/
def shared : List Char → List Char → List Char
  | c :: cs, d :: ds => if c = d then c :: shared cs ds else []
  | _, _ => []

mutual

/-- Put a value under pieces, of which a node stands for the first one.  A
text node whose label goes on differently is cut in two. -/
def Node.insert (v : α) : Node α → List Piece → Node α
  | .text label value branches, .text cs :: rest =>
    let common := shared label cs
    let left := Piece.onto (.text (cs.drop common.length)) rest
    match label.drop common.length with
    | [] =>
      if left.isEmpty then .text label (some v) branches
      else .text label value (insertBelow v branches left)
    | lower =>
      let lower := Node.text lower value branches
      if left.isEmpty then .text common (some v) [lower]
      else .text common none [lower, .ofPieces v left]
  | .parameter value branches, _ :: rest =>
    if rest.isEmpty then .parameter (some v) branches
    else .parameter value (insertBelow v branches rest)
  | n, _ => n

/-- Put a value under pieces among nodes. -/
def insertBelow (v : α) : List (Node α) → List Piece → List (Node α)
  | [], pieces => [.ofPieces v pieces]
  | n :: rest, pieces =>
    if pieces.head?.any n.standsFor then n.insert v pieces :: rest
    else n :: insertBelow v rest pieces

end

/-- Put a value under pieces. -/
def Tree.insert (t : Tree α) (pieces : List Piece) (v : α) : Tree α := insertBelow v t pieces

/-! ## Searching -/

/-- What has come of a search. -/
inductive Outcome (α : Type) where
  /-- A path matches; parameters and wildcards have taken these characters. -/
  | found (value : α) (taken : List (List Char))
  /-- Nothing matches here; less literal paths may be tried. -/
  | missed
  /-- Nothing matches, and nothing else is to be tried. -/
  | refused

namespace Outcome

/-- What comes of being left with some characters that fit nowhere. -/
def leftWith (cs : List Char) : Outcome α := if cs = ['/'] then .refused else .missed

/-- A path that ends at a node with or without a value. -/
def endingAt (value : Option α) (otherwise : Outcome α) : Outcome α :=
  match value with
  | some v => .found v []
  | none => otherwise

/-- Note what a parameter takes. -/
def taking (cs : List Char) : Outcome α → Outcome α
  | .found v taken => .found v (cs :: taken)
  | o => o

/-- Where an outcome is a miss, something less literal counts, if there is
any. -/
def orElse : Outcome α → Option (Outcome α) → Outcome α
  | .missed, some other => other
  | o, _ => o

end Outcome

/-- What is left of a text behind its beginning. -/
def behind? : (beginning : List Char) → List Char → Option (List Char)
  | [], cs => some cs
  | _ :: _, [] => none
  | b :: bs, c :: cs => if b = c then behind? bs cs else none

/-- Does a path end one slash further down? -/
def endsWithSlash : List (Node α) → Bool
  | [] => false
  | .text ['/'] (some _) _ :: _ => true
  | _ :: rest => endsWithSlash rest

mutual

/-- Read a path from the label of a text node on. -/
def Node.walk : Node α → List Char → Outcome α
  | .text label value branches, path =>
    match behind? label path with
    | none =>
      if label = path ++ ['/'] && value.isSome then .refused else .leftWith path
    | some [] => .endingAt value (.leftWith path)
    | some left =>
      match walkLiteral branches left with
      | some o => o.orElse (walkOpen branches left)
      | none => (walkOpen branches left).getD (.leftWith left)
  | _, path => .leftWith path

/-- Go on with the literal branch that begins as a path does. -/
def walkLiteral : List (Node α) → List Char → Option (Outcome α)
  | [], _ => none
  | n :: rest, path =>
    if n.standsFor (.text path) then some (n.walk path) else walkLiteral rest path

/-- Go on with the parameter or the wildcard.  A parameter takes what stands
before the next slash, which may be nothing. -/
def walkOpen : List (Node α) → List Char → Option (Outcome α)
  | [], _ => none
  | .parameter value branches :: _, path =>
    let taken := path.takeWhile (· ≠ '/')
    some <| .taking taken <| match path.dropWhile (· ≠ '/') with
      | [] => .endingAt value (if endsWithSlash branches then .refused else .missed)
      | left => (walkLiteral branches left).getD (.leftWith left)
  | .wildcard v :: _, path => some (.found v [path])
  | .text _ _ _ :: rest, path => walkOpen rest path

end

/-- The value under which a path is found, and what its parameters and
wildcards take. -/
def Tree.find? (t : Tree α) (path : String) : Option (α × List (List Char)) :=
  match walkLiteral t path.toList with
  | some (.found v taken) => some (v, taken)
  | _ => none

end Switchboard.Route
