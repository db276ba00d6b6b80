import Stencil.Identifier
import Stencil.Proofs.Files

/-!
# Identifiers and links

What a name is brought to is never blank: it is a line of names below the root, none of which is blank.
The files take part in it only through their links, and only for absolute names that do not lie below
the root as they are written. So trees with the same links give every name the same identifier.
-/

namespace Stencil

namespace Identifier

theorem mem_of_afterRoot? {root names rest : List String} (h : afterRoot? root names = some rest)
    {x : String} (hx : x ∈ rest) : x ∈ names := by
  induction root generalizing names with
  | nil =>
    rw [afterRoot?, Option.some.injEq] at h
    exact h ▸ hx
  | cons r root ih =>
    cases names with
    | nil => simp [afterRoot?] at h
    | cons n names =>
      rw [afterRoot?] at h
      split at h
      · exact List.mem_cons_of_mem _ (ih h)
      · simp at h

/-- The names below a root are not blank, and there is one at least. -/
theorem joinNames_relative? {root path : String} {names : List String}
    (h : relative? root path = some names) : Files.joinNames names ≠ "" := by
  rw [relative?] at h
  split at h
  · next n rest hrest =>
    rw [Option.some.injEq] at h
    subst h
    have hmem := Files.mem_collapse (mem_of_afterRoot? hrest (List.mem_cons_self))
    exact Files.joinNames_ne_empty (Files.ne_empty_of_mem_components hmem)
  · simp at h

/-- No name is brought to a blank identifier. -/
theorem ne_empty_of_normalize {tree : Files.Tree} {here root name id : String}
    (h : normalize tree here root name = .ok id) : id ≠ "" := by
  unfold normalize at h
  dsimp only at h
  split at h
  · next names hnames =>
    rw [Except.ok.injEq] at h
    exact h ▸ joinNames_relative? hnames
  · split at h
    · split at h
      · exact nomatch h
      · split at h
        · next names hnames =>
          rw [Except.ok.injEq] at h
          exact h ▸ joinNames_relative? hnames
        · exact nomatch h
    · exact nomatch h

/-- Trees with the same links give every name the same identifier. -/
theorem normalize_congr {t t' : Files.Tree} (h : t.SameLinks t') (here root name : String) :
    normalize t here root name = normalize t' here root name := by
  unfold normalize
  simp only [Files.Tree.realPath_congr h]

end Identifier

end Stencil
