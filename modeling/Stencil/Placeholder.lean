import Stencil.Digest.Md5
import Stencil.Directive
import Stencil.Text.Utf8

/-!
# Placeholders

A shrinker must not touch directives, so each is taken out of a text and a token put in its place. A
token is a fixed word and the digest of the directive in hexadecimal digits: it looks like the name
of a variable, and equal directives have equal tokens. Afterwards each token is replaced by its
directive again, one after another in the order in which they were first seen.
-/

namespace Stencil.Placeholder

/-- The word that every token starts with. -/
def word : List Char := ['t', 'p', 'l', 'm', 'a', 't', 'c', 'h']

/-- The token of a directive. -/
def token (span : List Char) : List Char :=
  word ++ Digest.hex (Digest.md5 (Text.encode (String.ofList span)))

/-- Tokens and the directives that they stand for. -/
abbrev Mapping := List (List Char × List Char)

/-- The mapping after a token is given a directive: in its place if it is there, else at the end. -/
def Mapping.put (token span : List Char) : Mapping → Mapping
  | [] => [(token, span)]
  | (t, s) :: rest => if t = token then (t, span) :: rest else (t, s) :: Mapping.put token span rest

/-- A piece of a text with a token in place of a directive. -/
def masked : Piece → List Char
  | .char c => [c]
  | .directive span => token span

/-- The text with every directive replaced by its token. -/
def mask (text : List Char) : List Char := (pieces text).flatMap masked

/-- The tokens of a text's directives, in the order in which they are first seen. -/
def mapping (text : List Char) : Mapping :=
  (directives text).foldl (fun m span => m.put (token span) span) []

/-- One token replaced by its directive. -/
def restoreOne (text : List Char) (entry : List Char × List Char) : List Char :=
  Text.replaceAll entry.1 entry.2 text

/-- Each token in turn replaced by its directive. -/
def restore (m : Mapping) (text : List Char) : List Char := m.foldl restoreOne text

/-- The directives whose tokens are not met when their turn comes. -/
def dropped : Mapping → List Char → List (List Char)
  | [], _ => []
  | (token, span) :: rest, text =>
    if Text.occursIn token text then dropped rest (restoreOne text (token, span))
    else span :: dropped rest text

/-- A mapping from pairs in which a token may come again: the last directive counts, in the first
place. -/
def Mapping.ofPairs (pairs : List (List Char × List Char)) : Mapping :=
  pairs.foldl (fun m (t, s) => m.put t s) []

end Stencil.Placeholder
