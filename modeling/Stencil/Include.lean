import Stencil.Text.Blank
import Stencil.Text.Find

/-!
# Includes

An include asks for another template to be set in its place: `<%`, the word `include`, a name between
quotes and `%>`, with blanks allowed between the parts and at least one before the name. The two
quotes need not be alike. The name is as short as it can be, not empty, and goes over no line end.

A text is cut into segments: literal text, and the names of the includes between.
-/

namespace Stencil

/-- Whether a character is a quote. -/
def isQuote (c : Char) : Bool := c == '\'' || c == '"'

/-- The rest after the end of an include: blanks and `%>`. -/
def includeEnd? (cs : List Char) : Option (List Char) :=
  Text.dropPrefix? ['%', '>'] (cs.dropWhile Text.isBlank)

/-- The name of an include and the rest after its end; `cs` follows the first character of the name. -/
def includeName? : (cs : List Char) → Option (List Char × List Char)
  | [] => none
  | c :: rest =>
    match if isQuote c then includeEnd? rest else none with
    | some after => some ([], after)
    | none =>
      if c = '\n' then none
      else (includeName? rest).map fun (name, after) => (c :: name, after)

/-- The include at the start of a text: its name, and the rest after it. -/
def include? (text : List Char) : Option (List Char × List Char) := do
  let rest ← Text.dropPrefix? ['<', '%'] text
  let rest ← Text.dropPrefix? ['i', 'n', 'c', 'l', 'u', 'd', 'e'] (rest.dropWhile Text.isBlank)
  match rest with
  | [] => none
  | blank :: rest =>
    if Text.isBlank blank then
      match rest.dropWhile Text.isBlank with
      | quote :: first :: rest =>
        if isQuote quote && first != '\n' then
          (includeName? rest).map fun (name, after) => (first :: name, after)
        else none
      | _ => none
    else none

/-- A part of a template. -/
inductive Segment where
  /-- Text that stands for itself. -/
  | literal (text : List Char)
  /-- The template of this name is set here. -/
  | include (name : List Char)
  deriving Repr, DecidableEq

theorem length_includeEnd? {cs after : List Char} (h : includeEnd? cs = some after) :
    after.length < cs.length := by
  have h1 := Text.length_dropPrefix? h
  have h2 := (List.dropWhile_sublist Text.isBlank (l := cs)).length_le
  simp only [List.length_cons, List.length_nil] at h1
  omega

theorem length_includeName? {cs name after : List Char} (h : includeName? cs = some (name, after)) :
    after.length < cs.length := by
  induction cs generalizing name with
  | nil => simp [includeName?] at h
  | cons c rest ih =>
    simp only [includeName?] at h
    split at h
    · next a ha =>
      split at ha
      · simp only [Option.some.injEq, Prod.mk.injEq] at h
        have := length_includeEnd? ha
        rw [← h.2, List.length_cons]
        omega
      · simp at ha
    · split at h
      · simp at h
      · simp only [Option.map_eq_some_iff, Prod.mk.injEq] at h
        obtain ⟨⟨n, a⟩, hs, _, rfl⟩ := h
        have := ih hs
        dsimp only at *
        simp only [List.length_cons]
        omega

theorem length_include? {text name after : List Char} (h : include? text = some (name, after)) :
    after.length < text.length := by
  simp only [include?, Option.bind_eq_bind, Option.bind_eq_some_iff] at h
  obtain ⟨r1, h1, r2, h2, h⟩ := h
  have l1 := Text.length_dropPrefix? h1
  have l2 := Text.length_dropPrefix? h2
  have l3 := (List.dropWhile_sublist Text.isBlank (l := r1)).length_le
  simp only [List.length_cons, List.length_nil] at l1 l2
  split at h
  · simp at h
  · next blank rest =>
    split at h
    · split at h
      · next quote first rest' hd =>
        have l4 := (List.dropWhile_sublist Text.isBlank (l := rest)).length_le
        rw [hd] at l4
        split at h
        · simp only [Option.map_eq_some_iff, Prod.mk.injEq] at h
          obtain ⟨⟨n, a⟩, hs, _, rfl⟩ := h
          have := length_includeName? hs
          simp only [List.length_cons] at *
          omega
        · simp at h
      · simp at h
    · simp at h

/-- The segments of a text after some literal characters, which are kept in reverse. -/
def segmentsAfter (literal : List Char) (text : List Char) : List Segment :=
  match _h : include? text with
  | some (name, after) => .literal literal.reverse :: .include name :: segmentsAfter [] after
  | none =>
    match text with
    | [] => [.literal literal.reverse]
    | c :: rest => segmentsAfter (c :: literal) rest
termination_by text.length
decreasing_by
  · exact length_include? ‹_›
  · simp

/-- The segments of a template: literal text and includes in turn, literal text first and last. -/
def segments (text : List Char) : List Segment := segmentsAfter [] text

/-- The names in the includes among some segments. -/
def includeNames (parts : List Segment) : List (List Char) :=
  parts.filterMap fun part => match part with | .include name => some name | .literal _ => none

end Stencil
