import Concordance.Assoc
import Concordance.Json.Double

/-! # JSON values

Whole numbers and floating-point numbers are told apart, and the members of an
object keep the order in which they were written until the object is put into
canonical form.
-/

namespace Concordance

inductive Number where
  /-- A whole number of up to sixty-four bits, written without point and exponent. -/
  | whole (n : Int)
  | double (x : Double)
  deriving Repr, DecidableEq

/-- Equal as numbers of one kind. -/
def Number.same : Number → Number → Bool
  | whole a, whole b => a == b
  | double x, double y => x.sameValue y
  | _, _ => false

inductive Json where
  | null
  | bool (b : Bool)
  | number (n : Number)
  | string (s : String)
  | array (items : List Json)
  /-- Named values, as they were written. -/
  | object (members : List (String × Json))
  /-- A literal without a value: a number out of range, or a text with half a surrogate pair.
  It may stand where nothing reads it. -/
  | unreadable
  deriving Inhabited

namespace Json

def whole (n : Int) : Json := .number (.whole n)

/-- A text, or null. -/
def optional : Option String → Json
  | none => .null
  | some s => .string s

mutual

/-- Equality of values: members are compared in order, and numbers as numbers. -/
def same : Json → Json → Bool
  | null, null => true
  | bool a, bool b => a == b
  | number a, number b => a.same b
  | string a, string b => a == b
  | array as, array bs => sameItems as bs
  | object as, object bs => sameMembers as bs
  | unreadable, unreadable => true
  | _, _ => false

def sameItems : List Json → List Json → Bool
  | [], [] => true
  | a :: as, b :: bs => same a b && sameItems as bs
  | _, _ => false

/-- Equality of members one by one, names included. -/
def sameMembers : List (String × Json) → List (String × Json) → Bool
  | [], [] => true
  | (k, a) :: as, (l, b) :: bs => k == l && same a b && sameMembers as bs
  | _, _ => false

end

mutual

/-- The canonical form: members in rising order of their names; of several members of one name the
last one counts. -/
def canonical : Json → Json
  | array items => array (canonicalItems items)
  | object members => object (Assoc.ofList (canonicalMembers members))
  | null => null
  | bool b => bool b
  | number n => number n
  | string s => string s
  | unreadable => unreadable

def canonicalItems : List Json → List Json
  | [] => []
  | item :: items => canonical item :: canonicalItems items

/-- The members with their values in canonical form, still in written order. -/
def canonicalMembers : List (String × Json) → List (String × Json)
  | [] => []
  | (key, value) :: members => (key, canonical value) :: canonicalMembers members

end

end Json

end Concordance
