/-
JSON values as a parser delivers them: numbers by the machine type that
holds them, and an object as its members in order, duplicates included.
Reading a member takes the last of its name, as a map that is filled in
order would.
-/
import Mathlib.Data.List.Basic

/-- A number: unsigned and negative integers of 64 bits, and anything else
as the sign, digits and decimal exponent it was written with. -/
inductive Json.Number where
  | posInt (n : UInt64)
  | negInt (magnitude : UInt64)
  | float (negative : Bool) (digits : Nat) (exponent : Int)
  deriving DecidableEq, Repr

inductive Json where
  | null
  | bool (b : Bool)
  | num (n : Json.Number)
  | str (s : String)
  | arr (items : List Json)
  | obj (members : List (String × Json))
  deriving Repr

namespace Json

/-- The member of an object by name. -/
def get (key : String) : Json → Option Json
  | .obj members => members.reverse.lookup key
  | _ => none

def asStr : Json → Option String
  | .str s => some s
  | _ => none

def asU64 : Json → Option UInt64
  | .num (.posInt n) => some n
  | _ => none

def asArray : Json → Option (List Json)
  | .arr items => some items
  | _ => none

/-- The value itself, when it is an object. -/
def asObject : Json → Option Json
  | .obj members => some (.obj members)
  | _ => none

end Json
