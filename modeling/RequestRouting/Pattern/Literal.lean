import RequestRouting.Pattern.Error

/-!
# Literal patterns

Plain text, compared with a whole path or with its start. Literal patterns have
no parameters.
-/

namespace RequestRouting

/-- How much of a path a pattern has to cover. -/
inductive Extent
  /-- The whole path. -/
  | whole
  /-- Some leading part of it. -/
  | leading
  deriving DecidableEq, Repr

/-- Values extracted from a path: under its position for every group, then under
its name for every named one. -/
abbrev Parameters := List (String × String)

namespace Pattern

/-- A literal pattern. -/
structure Literal where
  text : String
  extent : Extent
  deriving DecidableEq, Repr

namespace Literal

/-- The text of a literal is empty or starts with a slash. -/
def ofText (text : String) (extent : Extent) : Except PatternError Literal :=
  match text.toList with
  | [] => .ok ⟨text, extent⟩
  | '/' :: _ => .ok ⟨text, extent⟩
  | _ => .error ⟨text, .invalidOpening .slash⟩

/-- The literal that matches every path. -/
def any : Literal := ⟨"", .leading⟩

/-- Whether a path is the text, or starts with it. -/
def accepts (p : Literal) (path : String) : Bool :=
  match p.extent with
  | .whole => path == p.text
  | .leading => p.text.toList.isPrefixOf path.toList

/-- A literal extracts nothing from the paths that it matches. -/
def extract (p : Literal) (path : String) : Except PathError Parameters :=
  if p.accepts path then .ok [] else .error ⟨path, p.text⟩

end Literal

end Pattern

end RequestRouting
