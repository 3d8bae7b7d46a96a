import SalonBooking.Lib.Query

/-!
# Character references

`html.unescape` and `html.escape` of the standard library, over lists of code points. The table of named references is
a parameter; unescaping what was escaped gives the text back.
-/

namespace SalonBooking.Lib

def utf16Units (c : Char) : Nat := if c.toNat < 0x10000 then 1 else 2

namespace Html

def units (s : List Char) : Nat := (s.map utf16Units).sum

@[simp] theorem units_nil : units [] = 0 := rfl

@[simp] theorem units_cons (c : Char) (s : List Char) : units (c :: s) = utf16Units c + units s := by
  simp [units]

@[simp] theorem units_append (s t : List Char) : units (s ++ t) = units s + units t := by
  simp [units]

theorem utf16Units_pos (c : Char) : 0 < utf16Units c := by
  unfold utf16Units
  split <;> omega

theorem utf16Units_le (c : Char) : utf16Units c ≤ 2 := by
  unfold utf16Units
  split <;> omega

theorem units_eq_zero {s : List Char} : units s = 0 ↔ s = [] := by
  cases s with
  | nil => simp
  | cons c s =>
    have := utf16Units_pos c
    simp only [units_cons, reduceCtorEq, iff_false]
    omega

/-! ### Unescaping -/

/-- `html.entities.html5`: the named references without `&`, most of them with `;`. -/
structure Entities where
  html5 : List Char → Option (List Char)
  names : ∀ {name value}, html5 name = some value → name.length ≤ 33
  values : ∀ {name value}, html5 name = some value → units value ≤ 2

def Entities.ofList (table : List (List Char × List Char)) (h : ∀ r ∈ table, r.1.length ≤ 33 ∧ units r.2 ≤ 2) :
    Entities where
  html5 name := (table.find? (·.1 == name)).map (·.2)
  names := by
    intro name value found
    obtain ⟨r, hr, rfl⟩ := Option.map_eq_some_iff.mp found
    obtain rfl : r.1 = name := by simpa using List.find?_some hr
    exact (h r (List.mem_of_find?_eq_some hr)).1
  values := by
    intro name value found
    obtain ⟨r, hr, rfl⟩ := Option.map_eq_some_iff.mp found
    exact (h r (List.mem_of_find?_eq_some hr)).2

/-- `_invalid_charrefs`. -/
def invalidCharrefs : List (Nat × Nat) :=
  [(0x00, 0xfffd), (0x0d, 0x0d), (0x80, 0x20ac), (0x81, 0x81), (0x82, 0x201a), (0x83, 0x192), (0x84, 0x201e),
    (0x85, 0x2026), (0x86, 0x2020), (0x87, 0x2021), (0x88, 0x2c6), (0x89, 0x2030), (0x8a, 0x160), (0x8b, 0x2039),
    (0x8c, 0x152), (0x8d, 0x8d), (0x8e, 0x17d), (0x8f, 0x8f), (0x90, 0x90), (0x91, 0x2018), (0x92, 0x2019),
    (0x93, 0x201c), (0x94, 0x201d), (0x95, 0x2022), (0x96, 0x2013), (0x97, 0x2014), (0x98, 0x2dc), (0x99, 0x2122),
    (0x9a, 0x161), (0x9b, 0x203a), (0x9c, 0x153), (0x9d, 0x9d), (0x9e, 0x17e), (0x9f, 0x178)]

/-- `_invalid_codepoints`. -/
def invalidCodepoint (n : Nat) : Bool :=
  (0x1 ≤ n && n ≤ 0x8) || n == 0xb || (0xe ≤ n && n ≤ 0x1f) || (0x7f ≤ n && n ≤ 0x9f) || (0xfdd0 ≤ n && n ≤ 0xfdef) ||
    n % 0x10000 == 0xfffe || n % 0x10000 == 0xffff

def numeric (n : Nat) : List Char :=
  match invalidCharrefs.lookup n with
  | some code => [Char.ofNat code]
  | none =>
    if (0xd800 ≤ n ∧ n ≤ 0xdfff) ∨ 0x10ffff < n then [Char.ofNat 0xfffd]
    else if invalidCodepoint n then []
    else [Char.ofNat n]

/-- `int` of digits. -/
def number (base : Nat) (digits : List Char) : Nat :=
  digits.foldl (fun n c => base * n + (Query.hexValue c).getD 0) 0

/-- The longest name of at least two characters that the text begins with, shorter than the text. -/
def longest (E : Entities) (s : List Char) : Option (List Char × List Char) :=
  ((List.range (s.length - 2)).map (s.length - 1 - ·)).findSome? fun x =>
    (E.html5 (s.take x)).map fun value => (value, s.drop x)

/-- `_replace_charref`, of what is after `&`. -/
def replaceCharref (E : Entities) : List Char → List Char
  | '#' :: x :: rest =>
    if x = 'x' ∨ x = 'X' then numeric (number 16 (rest.filter (· ≠ ';')))
    else numeric (number 10 ((x :: rest).filter (· ≠ ';')))
  | s =>
    match E.html5 s with
    | some value => value
    | none =>
      match longest E s with
      | some (value, rest) => value ++ rest
      | none => '&' :: s

def isHex (c : Char) : Bool := (Query.hexValue c).isSome

def isNameChar (c : Char) : Bool := !(['\t', '\n', '\x0c', ' ', '<', '&', '#', ';'].contains c)

/-- With the semicolon, when it comes next. -/
def ended (s rest : List Char) : List Char := s ++ (rest.head?.filter (· = ';')).toList

/-- What `_charref` matches after `&`. -/
def charref (s : List Char) : Option (List Char) :=
  match s with
  | '#' :: rest =>
    if rest.takeWhile Char.isDigit ≠ [] then
      some ('#' :: ended (rest.takeWhile Char.isDigit) (rest.dropWhile Char.isDigit))
    else
      match rest with
      | x :: digits =>
        if (x = 'x' ∨ x = 'X') ∧ digits.takeWhile isHex ≠ [] then
          some ('#' :: x :: ended (digits.takeWhile isHex) (digits.dropWhile isHex))
        else none
      | [] => none
  | _ =>
    let name := (s.takeWhile isNameChar).take 32
    if name = [] then none else some (ended name (s.drop name.length))

/-- `unescape` after a number of characters that are already replaced. -/
def unescapeAfter (E : Entities) : Nat → List Char → List Char
  | _, [] => []
  | skip + 1, _ :: rest => unescapeAfter E skip rest
  | 0, c :: rest =>
    if c = '&' then
      match charref rest with
      | some s => replaceCharref E s ++ unescapeAfter E s.length rest
      | none => c :: unescapeAfter E 0 rest
    else c :: unescapeAfter E 0 rest

def unescape (E : Entities) (s : List Char) : List Char := unescapeAfter E 0 s

variable {E : Entities} {s r : List Char} {c : Char}

@[simp] theorem unescape_nil : unescape E [] = [] := rfl

theorem unescape_cons (h : c ≠ '&') : unescape E (c :: r) = c :: unescape E r := by
  simp [unescape, unescapeAfter, h]

theorem unescapeAfter_append : unescapeAfter E s.length (s ++ r) = unescape E r := by
  induction s with
  | nil => cases r <;> rfl
  | cons c s ih => exact ih

theorem unescape_charref (h : charref (s ++ r) = some s) :
    unescape E ('&' :: (s ++ r)) = replaceCharref E s ++ unescape E r := by
  have replaced : unescape E ('&' :: (s ++ r)) = replaceCharref E s ++ unescapeAfter E s.length (s ++ r) := by
    simp [unescape, unescapeAfter, h]
  rw [replaced, unescapeAfter_append]

theorem takeWhile_append_cons {p : Char → Bool} (all : ∀ x ∈ s, p x = true) (stops : p c = false) :
    (s ++ c :: r).takeWhile p = s ∧ (s ++ c :: r).dropWhile p = c :: r := by
  induction s with
  | nil => simp [stops]
  | cons x s ih =>
    obtain ⟨taken, left⟩ := ih fun y hy => all y (by simp [hy])
    simp [all x (by simp), taken, left]

theorem charref_named (name : ∀ x ∈ s, isNameChar x = true) (some_ : s ≠ []) (short : s.length ≤ 32) :
    charref (s ++ ';' :: r) = some (s ++ [';']) := by
  obtain ⟨taken, -⟩ := takeWhile_append_cons (r := r) name (show isNameChar ';' = false by decide)
  obtain ⟨x, t, rfl⟩ := List.exists_cons_of_ne_nil some_
  have first : x ≠ '#' := fun h => absurd (name x (by simp)) (by subst h; decide)
  have cut : (x :: t).take 32 = x :: t := List.take_of_length_le short
  rw [charref]
  · simp only [taken, cut]
    simp [ended]
  · intro rest' h
    exact first (List.cons.inj h).1

theorem charref_decimal (digits : ∀ x ∈ s, x.isDigit = true) (some_ : s ≠ []) :
    charref ('#' :: s ++ ';' :: r) = some ('#' :: s ++ [';']) := by
  obtain ⟨taken, left⟩ := takeWhile_append_cons (r := r) digits (show Char.isDigit ';' = false by decide)
  simp [charref, taken, left, some_, ended]

theorem charref_hex {x : Char} (mark : x = 'x' ∨ x = 'X') (digits : ∀ y ∈ s, isHex y = true) (some_ : s ≠ []) :
    charref ('#' :: x :: s ++ ';' :: r) = some ('#' :: x :: s ++ [';']) := by
  obtain ⟨taken, left⟩ := takeWhile_append_cons (r := r) digits (show isHex ';' = false by decide)
  have letter : x.isDigit = false := by rcases mark with rfl | rfl <;> decide
  simp [charref, taken, left, some_, ended, letter, mark]

theorem units_numeric (n : Nat) : units (numeric n) ≤ 2 := by
  have one : ∀ d : Char, units [d] ≤ 2 := fun d => by simpa using utf16Units_le d
  unfold numeric
  cases invalidCharrefs.lookup n with
  | some code => exact one _
  | none =>
    dsimp only
    split
    · exact one _
    · split
      · simp
      · exact one _

theorem units_replaceCharref_number : units (replaceCharref E ('#' :: c :: s)) ≤ 2 := by
  show units (if c = 'x' ∨ c = 'X' then numeric _ else numeric _) ≤ 2
  split
  · exact units_numeric _
  · exact units_numeric _

theorem replaceCharref_named {value : List Char} (first : ∀ x ∈ s, isNameChar x = true)
    (h : E.html5 (s ++ [';']) = some value) : replaceCharref E (s ++ [';']) = value := by
  cases s with
  | nil => simp [replaceCharref] at h ⊢; simp [h]
  | cons x s =>
    have plain : x ≠ '#' := fun e => absurd (first x (by simp)) (by subst e; decide)
    rw [replaceCharref]
    · rw [h]
    · intro y t e
      exact plain (List.cons.inj e).1

/-! ### Escaping -/

/-- The reference that `escape` writes for a character. -/
def escapeChar (quote : Bool) (c : Char) : List Char :=
  if c = '&' then ['&', 'a', 'm', 'p', ';']
  else if c = '<' then ['&', 'l', 't', ';']
  else if c = '>' then ['&', 'g', 't', ';']
  else if quote ∧ c = '"' then ['&', 'q', 'u', 'o', 't', ';']
  else if quote ∧ c = '\'' then ['&', '#', 'x', '2', '7', ';']
  else [c]

def escape (quote : Bool) (s : List Char) : List Char := s.flatMap (escapeChar quote)

theorem escape_plain {quote : Bool} {s : List Char} {x : Char} (mem : x ∈ escape quote s) :
    x ≠ '<' ∧ x ≠ '>' ∧ (quote = true → x ≠ '"') := by
  obtain ⟨c, -, hx⟩ := List.mem_flatMap.mp mem
  unfold escapeChar at hx
  split at hx
  · simp at hx
    rcases hx with rfl | rfl | rfl | rfl | rfl <;> simp
  split at hx
  · simp at hx
    rcases hx with rfl | rfl | rfl | rfl <;> simp
  split at hx
  · simp at hx
    rcases hx with rfl | rfl | rfl | rfl <;> simp
  split at hx
  · simp at hx
    rcases hx with rfl | rfl | rfl | rfl | rfl | rfl <;> simp
  split at hx
  · simp at hx
    rcases hx with rfl | rfl | rfl | rfl | rfl | rfl <;> simp
  · next _ lt gt quot _ =>
    obtain rfl := List.mem_singleton.mp hx
    exact ⟨lt, gt, fun q h => quot ⟨q, h⟩⟩

/-- The references that `escape` writes are in the table. -/
def Entities.Basic (E : Entities) : Prop :=
  E.html5 ['a', 'm', 'p', ';'] = some ['&'] ∧ E.html5 ['l', 't', ';'] = some ['<'] ∧ E.html5 ['g', 't', ';'] = some ['>'] ∧
    E.html5 ['q', 'u', 'o', 't', ';'] = some ['"']

/-- The references of Telegram's own markup. -/
def telegram : Entities :=
  .ofList [(['a', 'm', 'p', ';'], ['&']), (['l', 't', ';'], ['<']), (['g', 't', ';'], ['>']), (['q', 'u', 'o', 't', ';'], ['"'])]
    (by decide +kernel)

theorem unescape_escapeChar (basic : E.Basic) (quote : Bool) :
    unescape E (escapeChar quote c ++ r) = c :: unescape E r := by
  obtain ⟨amp, lt, gt, quot⟩ := basic
  have named : ∀ (name : List Char) (d : Char), (∀ x ∈ name, isNameChar x = true) → name ≠ [] → name.length ≤ 32 →
      E.html5 (name ++ [';']) = some [d] → unescape E ('&' :: (name ++ ';' :: r)) = d :: unescape E r := by
    intro name d chars some_ short known
    have whole := unescape_charref (E := E) (s := name ++ [';']) (r := r) (by
      simpa using charref_named (r := r) chars some_ short)
    simpa [replaceCharref_named chars known] using whole
  unfold escapeChar
  split
  · next h => exact h ▸ named ['a', 'm', 'p'] '&' (by simp [isNameChar]) (by simp) (by simp) amp
  split
  · next h => exact h ▸ named ['l', 't'] '<' (by simp [isNameChar]) (by simp) (by simp) lt
  split
  · next h => exact h ▸ named ['g', 't'] '>' (by simp [isNameChar]) (by simp) (by simp) gt
  split
  · next h => exact h.2 ▸ named ['q', 'u', 'o', 't'] '"' (by simp [isNameChar]) (by simp) (by simp) quot
  split
  · next h =>
    have whole := unescape_charref (E := E) (s := ['#', 'x', '2', '7', ';']) (r := r) (charref_hex (s := ['2', '7']) (.inl rfl)
      (by simp [isHex, Query.hexValue]) (by simp))
    exact h.2 ▸ whole
  · next plain _ _ _ _ => exact unescape_cons plain

theorem unescape_escape (basic : E.Basic) (quote : Bool) (s : List Char) : unescape E (escape quote s) = s := by
  induction s with
  | nil => rfl
  | cons c s ih =>
    have split : escape quote (c :: s) = escapeChar quote c ++ escape quote s := rfl
    rw [split, unescape_escapeChar basic, ih]

end Html

end SalonBooking.Lib
