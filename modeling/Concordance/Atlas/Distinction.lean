import Concordance.Digest
import Concordance.Text.Base36
import Concordance.Text.Blank

/-! # Telling overloads apart

Symbols of one name under one page are told apart by suffixes: by their kind where
it is theirs alone, and otherwise by a short hash of their unique identifiers.
-/

namespace Concordance

/-- What tells a symbol apart from others of its name. -/
structure Distinction where
  /-- A short hash of its unique identifier. -/
  hash : String
  kind : String
  deriving Repr, DecidableEq

namespace Distinction

/-- The distinction of a symbol. Its hash is the first word of a digest. -/
def ofSymbol (precise kind : String) : Distinction where
  hash := Text.base36 (Digest.firstWord precise)
  kind := kind

/-- Whether a text names the kind, perhaps with a language before it. -/
def fitsKind (d : Distinction) (text : String) : Bool :=
  text == d.kind || (Text.cut? '.' text.toList).any fun (_, kind) => String.ofList kind == d.kind

/-- Whether a suffix selects the symbol: by its hash, by its kind, or by both. -/
def fits (d : Distinction) (suffix : String) : Bool :=
  suffix == d.hash || d.fitsKind suffix
    || (Text.cutLast? '-' suffix.toList).any fun (kind, hash) =>
        String.ofList hash == d.hash && d.fitsKind (String.ofList kind)

def suffixAmong (members : List Distinction) (d : Distinction) : String :=
  if members.countP (fun other => other.kind == d.kind) == 1 then d.kind else d.hash

/-- The path components of symbols of one name, in order. A symbol alone has its plain name. -/
def components (name : String) (members : List Distinction) : List String :=
  match members with
  | [_] => [name]
  | _ => members.map fun d => name ++ "-" ++ suffixAmong members d

end Distinction

end Concordance
