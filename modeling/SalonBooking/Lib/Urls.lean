import Mathlib

/-!
# Splitting URLs

`urllib.parse.urlsplit` of the standard library, as far as the scheme and the authority, over lists of code points. The
checks of the characters of an authority (brackets and compatibility forms) are a parameter.
-/

namespace SalonBooking.Lib

namespace Url

/-- What `urlsplit` reads before the scheme: leading controls and spaces go, and tabs and line ends everywhere. -/
def cleaned (url : List Char) : List Char :=
  (url.dropWhile fun c => c.toNat ≤ 0x20).filter fun c => c ≠ '\t' ∧ c ≠ '\r' ∧ c ≠ '\n'

/-- `[a-zA-Z]` -/
def isAsciiAlpha (c : Char) : Bool := (97 ≤ c.toNat && c.toNat ≤ 122) || (65 ≤ c.toNat && c.toNat ≤ 90)

/-- `scheme_chars`. -/
def isSchemeChar (c : Char) : Bool := isAsciiAlpha c || (48 ≤ c.toNat && c.toNat ≤ 57) || c == '+' || c == '-' || c == '.'

def endsAuthority (c : Char) : Bool := c == '/' || c == '?' || c == '#'

structure SplitResult where
  scheme : List Char
  netloc : List Char

/-- The scheme in lower case, and what follows its colon. -/
def splitScheme (url : List Char) : List Char × List Char :=
  let scheme := url.takeWhile (· ≠ ':')
  match scheme, url.dropWhile (· ≠ ':') with
  | c :: _, _ :: rest =>
    if isAsciiAlpha c ∧ scheme.all isSchemeChar = true then (scheme.map Char.toLower, rest) else ([], url)
  | _, _ => ([], url)

/-- `urlsplit`; `none` is its `ValueError`. -/
def urlsplit (refused : List Char → Bool) (url : List Char) : Option SplitResult :=
  let (scheme, rest) := splitScheme (cleaned url)
  match rest with
  | '/' :: '/' :: rest =>
    let netloc := rest.takeWhile fun c => !endsAuthority c
    if refused netloc then none else some ⟨scheme, netloc⟩
  | _ => some ⟨scheme, []⟩

namespace SplitResult

/-- `username is None and password is None`. -/
def anonymous (u : SplitResult) : Bool := !u.netloc.contains '@'

/-- What follows the last `@` of the authority. -/
def hostinfo (u : SplitResult) : List Char := (u.netloc.reverse.takeWhile (· ≠ '@')).reverse

/-- `hostname`, of an empty host `None`; the case does not matter here. -/
def hostname (u : SplitResult) : Option (List Char) :=
  let host :=
    match u.hostinfo.dropWhile (· ≠ '[') with
    | _ :: bracketed => bracketed.takeWhile (· ≠ ']')
    | [] => u.hostinfo.takeWhile (· ≠ ':')
  if host = [] then none else some (host.map Char.toLower)

end SplitResult

/-- A link with a scheme, two slashes and an authority that has a host. -/
def Absolute (scheme : List Char) (url : List Char) : Prop :=
  ∃ s authority rest, cleaned url = s ++ ':' :: '/' :: '/' :: (authority ++ rest) ∧ s.map Char.toLower = scheme ∧
    (∀ c ∈ authority, endsAuthority c = false) ∧ (rest = [] ∨ ∃ c tail, rest = c :: tail ∧ endsAuthority c = true) ∧
    authority ≠ []

variable {refused : List Char → Bool} {url : List Char} {u : SplitResult}

theorem stops_dropWhile {p : Char → Bool} {l tail : List Char} {c : Char} (h : l.dropWhile p = c :: tail) :
    p c = false := by
  induction l with
  | nil => simp at h
  | cons d l ih =>
    by_cases more : p d = true
    · exact ih (by rwa [List.dropWhile_cons_of_pos more] at h)
    · rw [List.dropWhile_cons_of_neg more] at h
      obtain ⟨rfl, -⟩ := List.cons.inj h
      simpa using more

theorem splitScheme_eq {scheme rest : List Char} (h : splitScheme url = (scheme, rest)) (some_ : scheme ≠ []) :
    ∃ s, url = s ++ ':' :: rest ∧ s.map Char.toLower = scheme := by
  unfold splitScheme at h
  have whole : url.takeWhile (· ≠ ':') ++ url.dropWhile (· ≠ ':') = url := List.takeWhile_append_dropWhile
  dsimp only at h
  split at h
  · next c s x tail hs hd =>
    split at h
    · obtain ⟨rfl, rfl⟩ := Prod.mk.inj h
      obtain rfl : x = ':' := by simpa using stops_dropWhile hd
      exact ⟨_, by rw [← hd, whole], rfl⟩
    · exact absurd (Prod.mk.inj h).1.symm some_
  · exact absurd (Prod.mk.inj h).1.symm some_

theorem absolute_of_urlsplit (h : urlsplit refused url = some u) (some_ : u.scheme ≠ []) (host : u.hostname.isSome = true) :
    Absolute u.scheme url := by
  rcases hsplit : splitScheme (cleaned url) with ⟨scheme, rest⟩
  simp only [urlsplit, hsplit] at h
  split at h
  · next tail =>
    split at h
    · cases h
    · obtain rfl := Option.some.inj h
      obtain ⟨s, whole, lower⟩ := splitScheme_eq hsplit some_
      refine ⟨s, tail.takeWhile fun c => !endsAuthority c, tail.dropWhile fun c => !endsAuthority c, ?_, lower, ?_, ?_, ?_⟩
      · rw [List.takeWhile_append_dropWhile]
        exact whole
      · intro c mem
        simpa using List.mem_takeWhile_imp mem
      · rcases hd : tail.dropWhile fun c => !endsAuthority c with _ | ⟨c, more⟩
        · exact .inl rfl
        · exact .inr ⟨c, more, rfl, by simpa using stops_dropWhile hd⟩
      · intro none_
        simp [SplitResult.hostname, SplitResult.hostinfo, none_] at host
  · obtain rfl := Option.some.inj h
    simp [SplitResult.hostname, SplitResult.hostinfo] at host

end Url

end SalonBooking.Lib
