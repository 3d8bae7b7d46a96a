import SalonBooking.Access.InitData

/-!
# JSON texts

`json.loads` with an `object_pairs_hook` that refuses repeated keys and a `parse_constant` that refuses `NaN` and the
infinities, and `json.dumps` of a flat object with sorted keys. Every call of the reader consumes a character, so that
the length of a text is enough fuel for it. A lone surrogate is read as U+FFFD.
-/

namespace SalonBooking.JsonText

open Lib

/-! ### Reading -/

def skip (s : List Char) : List Char := s.dropWhile fun c => c = ' ' || c = '\t' || c = '\n' || c = '\r'

def hex4 : List Char → Option (Nat × List Char)
  | a :: b :: c :: d :: rest => do
    let high := 16 * (← Query.hexValue a) + (← Query.hexValue b)
    return (256 * high + 16 * (← Query.hexValue c) + (← Query.hexValue d), rest)
  | _ => none

def replacement : Char := Char.ofNat 0xFFFD

/-- A `\u` escape after its letter, with the second half of a surrogate pair. -/
def unicodeEscape (s : List Char) : Option (Char × List Char) := do
  let (high, rest) ← hex4 s
  if 0xD800 ≤ high ∧ high ≤ 0xDBFF then
    match rest with
    | '\\' :: 'u' :: more =>
      let (low, after) ← hex4 more
      if 0xDC00 ≤ low ∧ low ≤ 0xDFFF then return (Char.ofNat (0x10000 + 1024 * (high - 0xD800) + (low - 0xDC00)), after)
      else return (replacement, rest)
    | _ => return (replacement, rest)
  else if 0xDC00 ≤ high ∧ high ≤ 0xDFFF then return (replacement, rest)
  else return (Char.ofNat high, rest)

def escape : List Char → Option (Char × List Char)
  | '"' :: rest => some ('"', rest)
  | '\\' :: rest => some ('\\', rest)
  | '/' :: rest => some ('/', rest)
  | 'b' :: rest => some (Char.ofNat 8, rest)
  | 'f' :: rest => some (Char.ofNat 12, rest)
  | 'n' :: rest => some ('\n', rest)
  | 'r' :: rest => some ('\r', rest)
  | 't' :: rest => some ('\t', rest)
  | 'u' :: rest => unicodeEscape rest
  | _ => none

def string : Nat → List Char → Option (List Char × List Char)
  | 0, _ => none
  | fuel + 1, c :: rest =>
    if c = '"' then some ([], rest)
    else if c = '\\' then do
      let (d, rest) ← escape rest
      let (s, rest) ← string fuel rest
      return (d :: s, rest)
    else if c.toNat < 32 then none
    else do
      let (s, rest) ← string fuel rest
      return (c :: s, rest)
  | _, [] => none

/-- An optional part of a number: a mark and digits, or nothing. -/
def part (marks signs : List Char) (s : List Char) : List Char × List Char :=
  match s with
  | c :: rest =>
    let sign := rest.takeWhile (· ∈ signs) |>.take 1
    let digits := (rest.drop sign.length).takeWhile Char.isDigit
    if c ∈ marks ∧ digits ≠ [] then (c :: sign ++ digits, (rest.drop sign.length).drop digits.length) else ([], s)
  | [] => ([], [])

def number (s : List Char) : Option (Json × List Char) :=
  let minus := s.takeWhile (· = '-') |>.take 1
  let digits := (s.drop minus.length).takeWhile Char.isDigit
  let whole := if digits.head? = some '0' then ['0'] else digits
  let rest := (s.drop minus.length).drop whole.length
  let (fraction, rest) := part ['.'] [] rest
  let (power, rest) := part ['e', 'E'] ['+', '-'] rest
  if whole = [] then none
  else if fraction ++ power = [] then
    some (.int ((if minus = [] then 1 else -1) * Nat.ofDigitChars 10 whole 0), rest)
  else some (.float (.ofList (minus ++ whole ++ fraction ++ power)), rest)

mutual

def value : Nat → List Char → Option (Json × List Char)
  | 0, _ => none
  | fuel + 1, s =>
    match s with
    | '"' :: rest => (string (rest.length + 1) rest).map fun p => (.str (.ofList p.1), p.2)
    | '\x7b' :: rest =>
      match skip rest with
      | '\x7d' :: rest => some (.dict [], rest)
      | rest => do
        let (items, rest) ← members fuel rest
        if (items.map Prod.fst).Nodup then return (.dict items, rest) else none
    | '[' :: rest =>
      match skip rest with
      | ']' :: rest => some (.list [], rest)
      | rest => do
        let (items, rest) ← elements fuel rest
        return (.list items, rest)
    | 'n' :: 'u' :: 'l' :: 'l' :: rest => some (.null, rest)
    | 't' :: 'r' :: 'u' :: 'e' :: rest => some (.bool true, rest)
    | 'f' :: 'a' :: 'l' :: 's' :: 'e' :: rest => some (.bool false, rest)
    | s => number s

/-- The members of an object, to its closing brace. -/
def members : Nat → List Char → Option (List (String × Json) × List Char)
  | 0, _ => none
  | fuel + 1, s =>
    match s with
    | '"' :: rest => do
      let (key, rest) ← string (rest.length + 1) rest
      match skip rest with
      | ':' :: rest =>
        let (item, rest) ← value fuel (skip rest)
        match skip rest with
        | '\x7d' :: rest => return ([(.ofList key, item)], rest)
        | ',' :: rest =>
          let (items, rest) ← members fuel (skip rest)
          return ((.ofList key, item) :: items, rest)
        | _ => none
      | _ => none
    | _ => none

/-- The elements of an array, to its closing bracket. -/
def elements : Nat → List Char → Option (List Json × List Char)
  | 0, _ => none
  | fuel + 1, s => do
    let (item, rest) ← value fuel s
    match skip rest with
    | ']' :: rest => return ([item], rest)
    | ',' :: rest =>
      let (items, rest) ← elements fuel (skip rest)
      return (item :: items, rest)
    | _ => none

end

/-- `json.loads(text, object_pairs_hook=_unique_object, parse_constant=_reject_json_constant)`. -/
def loads (text : String) : Option Json :=
  match value (text.toList.length + 1) (skip text.toList) with
  | some (item, rest) => if skip rest = [] then some item else none
  | none => none

/-! ### Writing -/

def hexDigits (n : Nat) : List Char :=
  [hexDigit (n / 4096 % 16), hexDigit (n / 256 % 16), hexDigit (n / 16 % 16), hexDigit (n % 16)]

/-- One character of a string, in ASCII. -/
def escaped (c : Char) : List Char :=
  if c = '"' then ['\\', '"']
  else if c = '\\' then ['\\', '\\']
  else if c = '\n' then ['\\', 'n']
  else if c = '\r' then ['\\', 'r']
  else if c = '\t' then ['\\', 't']
  else if c.toNat = 12 then ['\\', 'f']
  else if c.toNat = 8 then ['\\', 'b']
  else if 32 ≤ c.toNat ∧ c.toNat ≤ 126 then [c]
  else if c.toNat < 0x10000 then '\\' :: 'u' :: hexDigits c.toNat
  else '\\' :: 'u' :: hexDigits (0xD800 + (c.toNat - 0x10000) / 1024) ++
    '\\' :: 'u' :: hexDigits (0xDC00 + (c.toNat - 0x10000) % 1024)

def dumpString (s : List Char) : List Char := '"' :: s.flatMap escaped ++ ['"']

/-- The values of the flat objects that are written. -/
inductive Scalar
  | null
  | int (n : Int)
  | str (s : String)
deriving DecidableEq

namespace Scalar

def json : Scalar → Json
  | null => .null
  | int n => .int n
  | str s => .str s

def dump : Scalar → List Char
  | null => ['n', 'u', 'l', 'l']
  | int n => (if n < 0 then ['-'] else []) ++ Nat.toDigits 10 n.natAbs
  | str s => dumpString s.toList

end Scalar

def dumpMember (p : String × Scalar) : List Char := dumpString p.1.toList ++ ':' :: p.2.dump

/-- `json.dumps(items, sort_keys=True, separators=(",", ":"))`. -/
def dumps (items : List (String × Scalar)) : String :=
  .ofList ('\x7b' :: [','].intercalate ((items.insertionSort (·.1 ≤ ·.1)).map dumpMember) ++ ['\x7d'])

-- the reader follows the escapes of the writer, also those of a pair of surrogates
example : (string 40 (dumpString "a\"\\\nП😀".toList).tail).map Prod.fst = some "a\"\\\nП😀".toList := by decide +kernel

/-! ### Reading what was written -/

/-- A printable ASCII character that needs no escape. -/
def Plain (c : Char) : Prop := 32 ≤ c.toNat ∧ c.toNat ≤ 126 ∧ c ≠ '"' ∧ c ≠ '\\'

instance (c : Char) : Decidable (Plain c) := inferInstanceAs (Decidable (_ ∧ _))

theorem escaped_plain {c : Char} (h : Plain c) : escaped c = [c] := by
  obtain ⟨low, high, quote, backslash⟩ := h
  have apart : ∀ d : Char, d.toNat < 32 → c ≠ d := by
    rintro d hd rfl
    omega
  simp only [escaped, if_neg quote, if_neg backslash, if_neg (apart '\n' (by decide)), if_neg (apart '\r' (by decide)),
    if_neg (apart '\t' (by decide)), if_pos (And.intro low high)]
  rw [if_neg (by omega), if_neg (by omega)]

theorem dumpString_plain {s : List Char} (h : ∀ c ∈ s, Plain c) : dumpString s = '"' :: s ++ ['"'] := by
  rw [dumpString, (List.flatMap_congr fun c hc => escaped_plain (h c hc)).trans (List.flatMap_singleton' s)]

theorem string_plain {s rest : List Char} (h : ∀ c ∈ s, Plain c) :
    ∀ fuel, s.length < fuel → string fuel (s ++ '"' :: rest) = some (s, rest) := by
  induction s with
  | nil =>
    intro fuel enough
    obtain ⟨fuel, rfl⟩ := Nat.exists_eq_succ_of_ne_zero (Nat.ne_of_gt enough)
    rfl
  | cons c s ih =>
    intro fuel enough
    obtain ⟨fuel, rfl⟩ := Nat.exists_eq_succ_of_ne_zero (Nat.ne_of_gt (Nat.zero_lt_of_lt enough))
    obtain ⟨low, -, quote, backslash⟩ := h c List.mem_cons_self
    have tail := ih (fun d hd => h d (List.mem_cons_of_mem c hd)) fuel (Nat.lt_of_succ_lt_succ enough)
    rw [List.cons_append, string, if_neg quote, if_neg backslash, if_neg (by omega), tail]
    rfl

theorem head_toDigits {n : Nat} (h : (Nat.toDigits 10 n).head? = some '0') : n = 0 := by
  induction n using Nat.base_induction 10 (by norm_num) with
  | single m hm =>
    rw [Nat.toDigits_of_lt_base hm] at h
    interval_cases m <;> first | rfl | exact absurd h (by decide)
  | digit m k hk hm ih =>
    rw [← Nat.toDigits_append_toDigits (by norm_num) hm hk, List.head?_append_of_ne_nil _ Nat.toDigits_ne_nil] at h
    exact absurd (ih h) (Nat.ne_of_gt hm)

def Ends (c : Char) : Prop := c = ',' ∨ c = '\x7d'

theorem number_digits {n : Nat} {c : Char} {rest : List Char} (ends : Ends c) :
    number (Nat.toDigits 10 n ++ c :: rest) = some (.int n, c :: rest) := by
  have digit : ∀ d ∈ Nat.toDigits 10 n, d.isDigit = true := fun d hd =>
    Nat.isDigit_of_mem_toDigits (by norm_num) (by norm_num) hd
  have stop : ¬ c.isDigit = true ∧ c ∉ ['.'] ∧ c ∉ ['e', 'E'] := by
    rcases ends with rfl | rfl <;> decide
  have digits : (Nat.toDigits 10 n ++ c :: rest).takeWhile Char.isDigit = Nat.toDigits 10 n := by
    rw [List.takeWhile_append_of_pos digit, List.takeWhile_cons_of_neg stop.1, List.append_nil]
  have minus : ((Nat.toDigits 10 n ++ c :: rest).takeWhile (· = '-')).take 1 = [] := by
    obtain ⟨d, ds, head⟩ := List.exists_cons_of_ne_nil (Nat.toDigits_ne_nil (n := n) (b := 10))
    have : d.isDigit = true := digit d (head ▸ List.mem_cons_self)
    have positive : d ≠ '-' := by
      rintro rfl
      cases this
    rw [head, List.cons_append, List.takeWhile_cons, decide_eq_false positive]
    rfl
  have whole : (if (Nat.toDigits 10 n).head? = some '0' then ['0'] else Nat.toDigits 10 n) = Nat.toDigits 10 n := by
    split_ifs with zeroed
    · rw [head_toDigits zeroed]
      rfl
    · rfl
  have fraction : part ['.'] [] (c :: rest) = ([], c :: rest) := by
    rw [part, if_neg fun h => stop.2.1 h.1]
  have power : part ['e', 'E'] ['+', '-'] (c :: rest) = ([], c :: rest) := by
    rw [part, if_neg fun h => stop.2.2 h.1]
  unfold number
  simp only [minus, List.length_nil, List.drop_zero, digits, whole, List.drop_left, fraction, power,
    if_neg Nat.toDigits_ne_nil, List.append_nil, if_true, Nat.ofDigitChars_ten_toDigits, one_mul]

/-- A value whose text needs no escapes and no sign. -/
def Scalar.Simple : Scalar → Prop
  | .null => True
  | .int n => 0 ≤ n
  | .str s => ∀ c ∈ s.toList, Plain c

theorem value_dump {x : Scalar} (simple : x.Simple) {c : Char} {rest : List Char} (ends : Ends c) (fuel : Nat) :
    value (fuel + 1) (x.dump ++ c :: rest) = some (x.json, c :: rest) := by
  cases x with
  | null => rfl
  | int n =>
    obtain ⟨n, rfl⟩ := Int.eq_ofNat_of_zero_le simple
    have text : (Scalar.int n).dump = Nat.toDigits 10 n := by
      rw [Scalar.dump, if_neg (by omega)]
      rfl
    obtain ⟨d, ds, head⟩ := List.exists_cons_of_ne_nil (Nat.toDigits_ne_nil (n := n) (b := 10))
    have digit : d.isDigit = true :=
      Nat.isDigit_of_mem_toDigits (by norm_num) (by norm_num) (head ▸ List.mem_cons_self)
    have plain : value (fuel + 1) (d :: (ds ++ c :: rest)) = number (d :: (ds ++ c :: rest)) := by
      unfold value
      split
      all_goals first
        | rfl
        | next e =>
          obtain ⟨rfl, -⟩ := List.cons.inj e
          cases digit
    rw [text, head, List.cons_append, plain, ← List.cons_append, ← head, number_digits ends]
    rfl
  | str s =>
    have text : (Scalar.str s).dump = '"' :: (s.toList ++ ['"']) := by
      rw [Scalar.dump, dumpString_plain simple, List.cons_append]
    rw [text, List.cons_append, List.append_assoc, List.singleton_append]
    unfold value
    simp only
    rw [string_plain simple _ (by simp), Option.map_some, String.ofList_toList]
    rfl

/-- A member that is written without escapes. -/
def SimpleMember (p : String × Scalar) : Prop := (∀ c ∈ p.1.toList, Plain c) ∧ p.2.Simple

theorem skip_cons {c : Char} (h : c ≠ ' ' ∧ c ≠ '\t' ∧ c ≠ '\n' ∧ c ≠ '\r') (rest : List Char) :
    skip (c :: rest) = c :: rest := by
  rw [skip, List.dropWhile_cons_of_neg]
  simp [h]

theorem skip_dump {x : Scalar} (simple : x.Simple) (rest : List Char) : skip (x.dump ++ rest) = x.dump ++ rest := by
  cases x with
  | null => rfl
  | int n =>
    obtain ⟨n, rfl⟩ := Int.eq_ofNat_of_zero_le simple
    obtain ⟨d, ds, head⟩ := List.exists_cons_of_ne_nil (Nat.toDigits_ne_nil (n := n) (b := 10))
    have digit : d.isDigit = true :=
      Nat.isDigit_of_mem_toDigits (by norm_num) (by norm_num) (head ▸ List.mem_cons_self)
    have text : (Scalar.int n).dump = d :: ds := by
      rw [Scalar.dump, if_neg (by omega)]
      exact head
    rw [text, List.cons_append]
    apply skip_cons
    refine ⟨?_, ?_, ?_, ?_⟩
    all_goals
      rintro rfl
      cases digit
  | str s => rfl

theorem members_first {key : String} {x : Scalar} (simple : SimpleMember (key, x)) {c : Char} (ends : Ends c)
    (tail : List Char) (fuel : Nat) :
    members (fuel + 1 + 1) (dumpMember (key, x) ++ c :: tail) =
      if c = '\x7d' then some ([(key, x.json)], tail)
      else (members (fuel + 1) (skip tail)).map fun q => ((key, x.json) :: q.1, q.2) := by
  have text : dumpMember (key, x) ++ c :: tail = '"' :: (key.toList ++ '"' :: ':' :: (x.dump ++ c :: tail)) := by
    rw [dumpMember, dumpString_plain simple.1]
    simp
  have colon : skip (':' :: (x.dump ++ c :: tail)) = ':' :: (x.dump ++ c :: tail) := skip_cons (by decide) _
  have mark : skip (c :: tail) = c :: tail := skip_cons (by rcases ends with rfl | rfl <;> decide) _
  have scanned : string ((key.toList ++ '"' :: ':' :: (x.dump ++ c :: tail)).length + 1)
      (key.toList ++ '"' :: ':' :: (x.dump ++ c :: tail)) = some (key.toList, ':' :: (x.dump ++ c :: tail)) :=
    string_plain simple.1 _ (by simp)
  rw [text, members]
  simp only [scanned, Option.bind_eq_bind, Option.bind_some, colon, skip_dump simple.2,
    value_dump simple.2 ends, mark, String.ofList_toList]
  rcases ends with rfl | rfl
  · rw [if_neg (by decide)]
    show ((members (fuel + 1) (skip tail)).bind fun q => some ((key, x.json) :: q.1, q.2)) = _
    cases members (fuel + 1) (skip tail) <;> rfl
  · rfl

theorem members_quote (p : String × Scalar) (items : List (String × Scalar)) (rest : List Char) :
    ∃ tail, [','].intercalate ((p :: items).map dumpMember) ++ rest = '"' :: tail := by
  cases items with
  | nil => exact ⟨_, rfl⟩
  | cons q items => exact ⟨_, rfl⟩

theorem members_dump {items : List (String × Scalar)} (simple : ∀ p ∈ items, SimpleMember p) (some_item : items ≠ [])
    (rest : List Char) :
    ∀ fuel, items.length < fuel →
      members fuel ([','].intercalate (items.map dumpMember) ++ '\x7d' :: rest) =
        some (items.map fun p => (p.1, p.2.json), rest) := by
  induction items with
  | nil => exact absurd rfl some_item
  | cons p items ih =>
    intro fuel enough
    obtain ⟨fuel, rfl⟩ := Nat.exists_eq_succ_of_ne_zero (Nat.ne_of_gt (Nat.zero_lt_of_lt enough))
    have enough := Nat.lt_of_succ_lt_succ enough
    obtain ⟨fuel, rfl⟩ := Nat.exists_eq_succ_of_ne_zero (Nat.ne_of_gt (Nat.zero_lt_of_lt enough))
    have first := simple p List.mem_cons_self
    cases items with
    | nil =>
      rw [List.map_singleton, List.intercalate_singleton, members_first first (.inr rfl), if_pos rfl]
      rfl
    | cons q items =>
      have others := ih (fun x hx => simple x (List.mem_cons_of_mem p hx)) (List.cons_ne_nil q items) (fuel + 1) enough
      have joined : [','].intercalate ((p :: q :: items).map dumpMember) ++ '\x7d' :: rest =
          dumpMember p ++ ',' :: ([','].intercalate ((q :: items).map dumpMember) ++ '\x7d' :: rest) := by
        simp [List.intercalate_cons_cons]
      obtain ⟨tail, quote⟩ := members_quote q items ('\x7d' :: rest)
      have next : skip ('"' :: tail) = '"' :: tail := skip_cons (by decide) tail
      rw [joined, members_first first (.inl rfl), if_neg (by decide), quote, next, ← quote, others]
      rfl

theorem length_le_members (items : List (String × Scalar)) :
    items.length ≤ ([','].intercalate (items.map dumpMember)).length := by
  induction items with
  | nil => exact Nat.zero_le _
  | cons p items ih =>
    have some_char : 1 ≤ (dumpMember p).length := by
      rw [dumpMember, dumpString]
      simp
    cases items with
    | nil =>
      rw [List.map_singleton, List.intercalate_singleton]
      exact some_char
    | cons q items =>
      rw [List.map_cons, List.map_cons, List.intercalate_cons_cons, ← List.map_cons, List.length_append]
      simp only [List.length_cons, List.length_append] at ih ⊢
      omega

/-- **Reading a flat object back gives its members in the order of their keys.** -/
theorem loads_dumps {items : List (String × Scalar)} (simple : ∀ p ∈ items, SimpleMember p) (some_item : items ≠ [])
    (nodup : (items.map Prod.fst).Nodup) :
    loads (dumps items) = some (.dict ((items.insertionSort (·.1 ≤ ·.1)).map fun p => (p.1, p.2.json))) := by
  have perm := List.perm_insertionSort (fun p q : String × Scalar => p.1 ≤ q.1) items
  unfold loads dumps
  generalize items.insertionSort (·.1 ≤ ·.1) = sorted at perm
  obtain ⟨p, rest, rfl⟩ : ∃ p rest, sorted = p :: rest :=
    List.exists_cons_of_ne_nil fun empty => some_item (List.nil_perm.mp (empty ▸ perm))
  obtain ⟨tail, quote⟩ := members_quote p rest ['\x7d']
  have read := members_dump (fun x hx => simple x (perm.mem_iff.mp hx)) (List.cons_ne_nil p rest) []
    ('\x7b' :: [','].intercalate ((p :: rest).map dumpMember) ++ ['\x7d']).length (by
      have := length_le_members (p :: rest)
      simp only [List.length_cons, List.length_append] at this ⊢
      omega)
  have keys : (((p :: rest).map fun p => (p.1, p.2.json)).map Prod.fst).Nodup := by
    rw [List.map_map]
    exact (perm.map Prod.fst).nodup_iff.mpr nodup
  rw [String.toList_ofList]
  have opened : value (('\x7b' :: [','].intercalate ((p :: rest).map dumpMember) ++ ['\x7d']).length + 1)
      ('\x7b' :: ('"' :: tail)) = some (.dict ((p :: rest).map fun p => (p.1, p.2.json)), []) := by
    have next : skip ('"' :: tail) = '"' :: tail := skip_cons (by decide) tail
    rw [quote] at read
    unfold value
    simp only [next]
    show (members _ ('"' :: tail)).bind
      (fun p => if (p.1.map Prod.fst).Nodup then some (Json.dict p.1, p.2) else none) = _
    rw [read, Option.bind_some, if_pos keys]
  rw [List.cons_append, skip_cons (by decide), quote]
  rw [List.cons_append, quote] at opened
  rw [opened]
  rfl

/-! ### The size of what is written -/

theorem utf8ByteSize_ofList_le (l : List Char) : (String.ofList l).utf8ByteSize ≤ 4 * l.length := by
  rw [String.utf8ByteSize_ofList]
  induction l with
  | nil => exact Nat.zero_le _
  | cons c l ih =>
    have := c.utf8Size_le_four
    simp only [String.utf8Len_cons, List.length_cons]
    omega

theorem length_members_le {items : List (String × Scalar)} {bound : Nat}
    (h : ∀ p ∈ items, (dumpMember p).length ≤ bound) :
    ([','].intercalate (items.map dumpMember)).length ≤ items.length * (bound + 1) := by
  induction items with
  | nil => exact Nat.zero_le _
  | cons p items ih =>
    have first := h p List.mem_cons_self
    have rest := ih fun q hq => h q (List.mem_cons_of_mem p hq)
    cases items with
    | nil =>
      rw [List.map_singleton, List.intercalate_singleton, List.length_singleton]
      omega
    | cons q items =>
      rw [List.map_cons, List.map_cons, List.intercalate_cons_cons, ← List.map_cons]
      simp only [List.length_append, List.length_cons, List.length_nil, Nat.add_mul, Nat.one_mul] at rest ⊢
      omega

theorem utf8ByteSize_dumps {items : List (String × Scalar)} {bound : Nat}
    (h : ∀ p ∈ items, (dumpMember p).length ≤ bound) :
    (dumps items).utf8ByteSize ≤ 4 * (items.length * (bound + 1) + 2) := by
  have perm := List.perm_insertionSort (fun p q : String × Scalar => p.1 ≤ q.1) items
  have members := length_members_le fun p hp => h p (perm.mem_iff.mp hp)
  rw [perm.length_eq] at members
  refine (utf8ByteSize_ofList_le _).trans ?_
  simp only [List.length_append, List.length_cons, List.length_nil]
  omega

end SalonBooking.JsonText
