/-!
# Finding and replacing

Where a text occurs in another, and the text with every occurrence replaced. Occurrences are found
from the left and do not overlap.
-/

namespace Stencil.Text

/-- The rest after a given beginning, if the text begins so. -/
def dropPrefix? : (start text : List Char) → Option (List Char)
  | [], text => some text
  | _ :: _, [] => none
  | s :: start, c :: text => if s = c then dropPrefix? start text else none

/-- Splits at the first occurrence of `word`: what stands before it and after it. -/
def splitFirst? (word : List Char) : List Char → Option (List Char × List Char)
  | [] => if word.isEmpty then some ([], []) else none
  | c :: text =>
    match dropPrefix? word (c :: text) with
    | some rest => some ([], rest)
    | none => (splitFirst? word text).map fun (before, after) => (c :: before, after)

/-- Whether `word` occurs in the text. -/
def occursIn (word text : List Char) : Bool := (splitFirst? word text).isSome

theorem length_dropPrefix? {start text rest : List Char} (h : dropPrefix? start text = some rest) :
    text.length = start.length + rest.length := by
  induction start generalizing text with
  | nil => simp_all [dropPrefix?]
  | cons s start ih =>
    cases text with
    | nil => simp [dropPrefix?] at h
    | cons c text =>
      simp only [dropPrefix?] at h
      split at h
      · have := ih h
        simp only [List.length_cons]
        omega
      · simp at h

theorem length_splitFirst? {word text before after : List Char}
    (h : splitFirst? word text = some (before, after)) :
    text.length = before.length + word.length + after.length := by
  induction text generalizing before with
  | nil =>
    simp only [splitFirst?] at h
    split at h
    · rename_i hw
      simp only [Option.some.injEq, Prod.mk.injEq] at h
      obtain ⟨rfl, rfl⟩ := h
      simp_all [List.isEmpty_iff]
    · simp at h
  | cons c text ih =>
    simp only [splitFirst?] at h
    split at h
    · next rest hr =>
      simp only [Option.some.injEq, Prod.mk.injEq] at h
      obtain ⟨rfl, rfl⟩ := h
      have := length_dropPrefix? hr
      simp only [List.length_nil]
      omega
    · simp only [Option.map_eq_some_iff, Prod.mk.injEq] at h
      obtain ⟨⟨b, a⟩, hs, rfl, rfl⟩ := h
      have := ih hs
      dsimp only at *
      simp only [List.length_cons]
      omega

/-- Replaces every occurrence of a word that is not empty. -/
def replaceWord (word new : List Char) (hw : word ≠ []) (text : List Char) : List Char :=
  match _h : splitFirst? word text with
  | none => text
  | some (before, after) => before ++ new ++ replaceWord word new hw after
termination_by text.length
decreasing_by
  have := length_splitFirst? ‹_›
  have : 0 < word.length := List.length_pos_iff.2 hw
  omega

/-- Sets `new` before every character and at the end, which is where the empty text occurs. -/
def interleave (new text : List Char) : List Char :=
  new ++ text.flatMap fun c => c :: new

/-- Replaces every occurrence of `word` by `new`. -/
def replaceAll (word new text : List Char) : List Char :=
  if hw : word = [] then interleave new text else replaceWord word new hw text

/-- Replaces the first `count` occurrences. -/
def replaceFirst (word new : List Char) : Nat → List Char → List Char
  | 0, text => text
  | count + 1, text =>
    if word = [] then
      match text with
      | [] => new
      | c :: rest => new ++ c :: replaceFirst word new count rest
    else
      match splitFirst? word text with
      | none => text
      | some (before, after) => before ++ new ++ replaceFirst word new count after

/-- The parts between the occurrences of a word that is not empty, cut at most `limit` times. -/
def splitWord (word : List Char) : (limit : Nat) → List Char → List (List Char)
  | 0, text => [text]
  | limit + 1, text =>
    match splitFirst? word text with
    | none => [text]
    | some (before, after) => before :: splitWord word limit after

end Stencil.Text
