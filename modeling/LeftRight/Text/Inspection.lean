/-!
# Inspection text

A value can be shown for inspection in two ways: plainly, on one line, and spread out, with
one field or element to a line, four spaces for each level and a comma after each part.
An `Inspection` holds both, and the shapes below build it from the parts of a value.
-/

namespace LeftRight

/-- The inspection text of a value in both its forms. -/
structure Inspection where
  /-- The text on one line. -/
  plain : String
  /-- The lines of the spread-out text, the outermost not indented. -/
  lines : List String
  deriving DecidableEq, Repr

/-- Types whose values have an inspection text. -/
class Inspectable (α : Type) where
  /-- The inspection text of a value. -/
  inspect : α → Inspection

export Inspectable (inspect)

namespace Inspection

/-- The spread-out text. -/
def spread (i : Inspection) : String := "\n".intercalate i.lines

/-- The spread-out text if `pretty`, else the plain one. -/
def text (pretty : Bool) (i : Inspection) : String := if pretty then i.spread else i.plain

/-- A value that is shown by one word. -/
def atom (word : String) : Inspection := ⟨word, [word]⟩

/-- Put a label before the first line. -/
def labelFirst (label : String) : List String → List String
  | [] => [label]
  | line :: rest => (label ++ line) :: rest

/-- Put a mark after the last line. -/
def markLast (mark : String) : List String → List String
  | [] => [mark]
  | [line] => [line ++ mark]
  | line :: next :: rest => line :: markLast mark (next :: rest)

/-- The lines of one part of a larger value: a comma ends them and all move in by one level. -/
def part (i : Inspection) : List String := (markLast "," i.lines).map ("    " ++ ·)

/-- Parts between an opening and a closing mark; without parts the marks share one line. -/
def group (opening closing : String) (parts : List Inspection) : Inspection where
  plain := opening ++ ", ".intercalate (parts.map plain) ++ closing
  lines := if parts.isEmpty then [opening ++ closing] else
    opening :: (parts.flatMap part ++ [closing])

/-- A sequence, in brackets. -/
def list (items : List Inspection) : Inspection := group "[" "]" items

/-- A set, in braces. -/
def set (items : List Inspection) : Inspection := group "\x7b" "\x7d" items

/-- A tuple, in parentheses after its name; a nameless tuple has the empty name. -/
def tuple (name : String) (items : List Inspection) : Inspection := group (name ++ "(") ")" items

/-- A named field of a record. -/
def field (name : String) (value : Inspection) : Inspection where
  plain := name ++ ": " ++ value.plain
  lines := labelFirst (name ++ ": ") value.lines

/-- A record with its fields; two dots stand for what an incomplete one leaves out. -/
def recordWith (complete : Bool) (name : String) (fields : List (String × Inspection)) :
    Inspection :=
  let parts := fields.map fun f => field f.1 f.2
  { plain := name ++ " \x7b " ++
      ", ".intercalate (parts.map plain ++ if complete then [] else [".."]) ++ " \x7d"
    lines := (name ++ " \x7b") ::
      (parts.flatMap part ++ (if complete then [] else ["    .."]) ++ ["\x7d"]) }

/-- A record that shows all its fields. -/
def record (name : String) (fields : List (String × Inspection)) : Inspection :=
  recordWith true name fields

end Inspection

instance : Inspectable Nat := ⟨fun n => .atom (toString n)⟩

instance : Inspectable Int := ⟨fun n => .atom (toString n)⟩

instance : Inspectable Bool := ⟨fun b => .atom (toString b)⟩

/-- An absent value is `None`, a present one is wrapped in `Some`. -/
instance {α : Type} [Inspectable α] : Inspectable (Option α) :=
  ⟨fun o => o.elim (.atom "None") fun a => .tuple "Some" [inspect a]⟩

instance {α : Type} [Inspectable α] : Inspectable (List α) := ⟨fun as => .list (as.map inspect)⟩

end LeftRight
