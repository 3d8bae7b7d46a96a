import Mathlib

/-!
# Query strings

`parse_qsl` of the standard library with `keep_blank_values`, `strict_parsing` and a strict UTF-8 decoding.
A string is the list of its code points. Percent escapes are decoded in each maximal run of ASCII characters;
other characters stay as they are.
-/

namespace SalonBooking.Lib

namespace Query

def ascii (c : Char) : Bool := decide (c.toNat < 128)

/-- The value of a hexadecimal digit of either case. -/
def hexValue (c : Char) : Option Nat :=
  if '0' ≤ c ∧ c ≤ '9' then some (c.toNat - 48)
  else if 'A' ≤ c ∧ c ≤ 'F' then some (c.toNat - 55)
  else if 'a' ≤ c ∧ c ≤ 'f' then some (c.toNat - 87)
  else none

/-- `unquote_to_bytes`: a percent sign without two hexadecimal digits stands for itself. -/
def unquoteToBytes : List Char → List UInt8
  | '%' :: a :: b :: rest =>
    match hexValue a, hexValue b with
    | some x, some y => UInt8.ofNat (16 * x + y) :: unquoteToBytes rest
    | _, _ => 37 :: unquoteToBytes (a :: b :: rest)
  | c :: rest => UInt8.ofNat c.toNat :: unquoteToBytes rest
  | [] => []

/-- `bytes.decode("utf-8", "strict")`. -/
def decode (bytes : List UInt8) : Option (List Char) := (String.fromUTF8? ⟨bytes.toArray⟩).map String.toList

def unquote (s : List Char) : Option (List Char) :=
  if '%' ∈ s then
    ((s.splitBy fun a b => ascii a == ascii b).mapM fun run : List Char =>
      if run.all ascii then decode (unquoteToBytes run) else some run).map List.flatten
  else some s

/-- `s.split("=", 1)`, when there are two parts. -/
def partition (s : List Char) : Option (List Char × List Char) :=
  match s.dropWhile (· ≠ '=') with
  | [] => none
  | _ :: value => some (s.takeWhile (· ≠ '='), value)

def unquotePlus (s : List Char) : Option (List Char) := unquote (s.map fun c => if c = '+' then ' ' else c)

/-- The pairs of a query string, in order. -/
def parseQsl (maxNumFields : Nat) (qs : List Char) : Option (List (List Char × List Char)) :=
  let queryArgs := qs.splitOn '&'
  if maxNumFields < queryArgs.length then none
  else queryArgs.mapM fun nameValue => do
    let (name, value) ← partition nameValue
    return (← unquotePlus name, ← unquotePlus value)

-- an escape may be cut short by the end of its ASCII run; other characters are kept
example : unquote "a%5B%D0%9F%41é%2".toList = some "a[ПAé%2".toList := by decide +kernel

end Query

end SalonBooking.Lib
