import SalonBooking.Lib.Html
import SalonBooking.Lib.Nesting
import SalonBooking.Lib.Urls
import SalonBooking.Domain.Enums

/-!
# Welcome texts

`sanitize_welcome_html` over the events of the standard parser: what it accepts, what it writes, and when it accepts
again what it wrote.
-/

namespace SalonBooking

open Lib Html Markup

namespace Welcome

/-- The events of `HTMLParser` with `convert_charrefs=True`. -/
inductive Event
  | starttag (tag : List Char) (attrs : List (List Char × Option (List Char)))
  | startendtag (tag : List Char) (attrs : List (List Char × Option (List Char)))
  | endtag (tag : List Char)
  | data (data : List Char)
  | entityref (name : List Char)
  | charref (name : List Char)
  /-- A comment, a declaration or a processing instruction. -/
  | skipped
  /-- An `AssertionError` of the parser. -/
  | fails
  deriving DecidableEq

/-- `WelcomeContentError`. -/
structure WelcomeContentError where
  message : String
  deriving DecidableEq

/-- `_SIMPLE_TAGS`. -/
def simpleTags : List (List Char) :=
  [['b'], ['s', 't', 'r', 'o', 'n', 'g'], ['i'], ['e', 'm'], ['u'], ['i', 'n', 's'], ['s'], ['s', 't', 'r', 'i', 'k', 'e'],
    ['d', 'e', 'l'], ['c', 'o', 'd', 'e'], ['p', 'r', 'e']]

/-- `str.casefold` of a character, where the result is ASCII; the others stay outside ASCII. -/
def casefoldChar (c : Char) : List Char :=
  if 'A' ≤ c ∧ c ≤ 'Z' then [c.toLower]
  else
    match c with
    | 'ß' | 'ẞ' => ['s', 's']
    | 'ſ' => ['s']
    | '\u212a' => ['k']
    | 'ﬀ' => ['f', 'f']
    | 'ﬁ' => ['f', 'i']
    | 'ﬂ' => ['f', 'l']
    | 'ﬃ' => ['f', 'f', 'i']
    | 'ﬄ' => ['f', 'f', 'l']
    | 'ﬅ' | 'ﬆ' => ['s', 't']
    | _ => [c]

def casefold (s : List Char) : List Char := s.flatMap casefoldChar

/-- `<name>` and `</name>`. -/
def startTag (name : List Char) : List Char := '<' :: (name ++ ['>'])

def endTag (name : List Char) : List Char := '<' :: '/' :: (name ++ ['>'])

def linkTag (href : List Char) : List Char :=
  ['<', 'a', ' ', 'h', 'r', 'e', 'f', '=', '"'] ++ escape true href ++ ['"', '>']

/-- `urlsplit` of a link: an HTTPS URL with a host and without a user; `none` is a `ValueError`. -/
def safeLink (refused : List Char → Bool) (href : List Char) : Option Bool :=
  (Url.urlsplit refused href).map fun parsed =>
    parsed.scheme == ['h', 't', 't', 'p', 's'] && parsed.hostname.isSome && parsed.anonymous

/-! ### `_TelegramHtmlSanitizer` -/

/-- The output, and the open tags, the last one first. -/
structure Sanitizer where
  output : List Char
  stack : List (List Char)

namespace Sanitizer

def invalid : WelcomeContentError := ⟨"welcome formatting is invalid"⟩

def unsupported (tag : List Char) : WelcomeContentError :=
  ⟨"unsupported welcome formatting tag: " ++ String.ofList tag⟩

/-- `handle_starttag`. -/
def startTag (refused : List Char → Bool) (s : Sanitizer) (tag : List Char)
    (attrs : List (List Char × Option (List Char))) : Except WelcomeContentError Sanitizer :=
  let normalized := casefold tag
  if normalized ∈ simpleTags ∧ attrs = [] then
    .ok ⟨s.output ++ Welcome.startTag normalized, normalized :: s.stack⟩
  else
    match attrs with
    | [(name, value)] =>
      if normalized = ['a'] ∧ casefold name = ['h', 'r', 'e', 'f'] then
        let href := value.getD []
        match safeLink refused href with
        | none => .error invalid
        | some false => .error ⟨"welcome links must use safe HTTPS URLs"⟩
        | some true => .ok ⟨s.output ++ linkTag href, normalized :: s.stack⟩
      else .error (unsupported normalized)
    | _ => .error (unsupported normalized)

/-- `handle_endtag`. -/
def endTag (s : Sanitizer) (tag : List Char) : Except WelcomeContentError Sanitizer :=
  let normalized := casefold tag
  match s.stack with
  | top :: rest =>
    if top = normalized then .ok ⟨s.output ++ Welcome.endTag normalized, rest⟩
    else .error ⟨"welcome formatting tags must be properly nested"⟩
  | [] => .error ⟨"welcome formatting tags must be properly nested"⟩

def write (s : Sanitizer) (text : List Char) : Sanitizer := { s with output := s.output ++ escape false text }

def handle (refused : List Char → Bool) (s : Sanitizer) : Event → Except WelcomeContentError Sanitizer
  | .starttag tag attrs => s.startTag refused tag attrs
  | .startendtag tag attrs => do (← s.startTag refused tag attrs).endTag tag
  | .endtag tag => s.endTag tag
  | .data d => .ok (s.write d)
  | .entityref name => .ok (s.write ('&' :: (name ++ [';'])))
  | .charref name => .ok (s.write ('&' :: '#' :: (name ++ [';'])))
  | .skipped => .ok s
  | .fails => .error invalid

end Sanitizer

/-- `sanitize_welcome_html`, with the parser and the checks of `urlsplit`. -/
def sanitizeWelcomeHtml (events : List Char → List Event) (refused : List Char → Bool) (value : String) :
    Except WelcomeContentError String := do
  let normalized := strip value
  require (normalized.toList ≠ []) ⟨"welcome text must not be empty"⟩
  require (normalized.toList.length ≤ 3500) ⟨"welcome text must not exceed 3500 characters"⟩
  let parser ← (events normalized.toList).foldlM (Sanitizer.handle refused) ⟨[], []⟩
  require (parser.stack = []) ⟨"welcome formatting tag is not closed"⟩
  return String.ofList parser.output

/-! ### Documents -/

inductive Item
  | simple (name : List Char)
  | link (href : List Char)
  | closes (name : List Char)
  | char (c : Char)
  deriving DecidableEq

namespace Item

def text : Item → List Char
  | simple name => startTag name
  | link href => linkTag href
  | closes name => endTag name
  | char c => escapeChar false c

def markup : Item → Markup (List Char) (List Char) Char
  | simple name => .opens name
  | link _ => .opens ['a']
  | closes name => .closes name
  | char c => .holds c

end Item

def text (doc : List Item) : List Char := doc.flatMap Item.text

def Event.items : Event → List Item
  | starttag tag [] => [.simple (casefold tag)]
  | starttag _ (attr :: _) => [.link (attr.2.getD [])]
  | startendtag tag [] => [.simple (casefold tag), .closes (casefold tag)]
  | startendtag tag (attr :: _) => [.link (attr.2.getD []), .closes (casefold tag)]
  | endtag tag => [.closes (casefold tag)]
  | data d => d.map .char
  | entityref name => ('&' :: (name ++ [';'])).map .char
  | charref name => ('&' :: '#' :: (name ++ [';'])).map .char
  | skipped | fails => []

/-- The document of a stream of events. -/
def items (events : List Event) : List Item := events.flatMap Event.items

/-- The events of a document: adjacent characters are one piece of data. -/
def group : List Item → List Event
  | [] => []
  | .simple name :: rest => .starttag name [] :: group rest
  | .link href :: rest => .starttag ['a'] [(['h', 'r', 'e', 'f'], some href)] :: group rest
  | .closes name :: rest => .endtag name :: group rest
  | .char c :: rest =>
    match group rest with
    | .data d :: events => .data (c :: d) :: events
    | events => .data [c] :: events

/-- A piece whose tag is one that the sanitiser writes. -/
def Item.Known : Item → Prop
  | simple name => name ∈ simpleTags
  | link href => href ≠ []
  | closes name => name = ['a'] ∨ name ∈ simpleTags
  | char _ => True

/-- The standard parser: well-formed markup is read as it was written. -/
structure HtmlParser where
  events : List Char → List Event
  reads : ∀ doc : List Item, (∀ i ∈ doc, i.Known) → events (text doc) = group doc

/-! ### What is accepted -/

/-- A start tag that the sanitiser lets through. -/
def AllowedStart (refused : List Char → Bool) (tag : List Char) (attrs : List (List Char × Option (List Char))) : Prop :=
  (casefold tag ∈ simpleTags ∧ attrs = []) ∨ ∃ name value, attrs = [(name, value)] ∧ casefold tag = ['a'] ∧
    casefold name = ['h', 'r', 'e', 'f'] ∧ safeLink refused (value.getD []) = some true

def Event.Allowed (refused : List Char → Bool) : Event → Prop
  | starttag tag attrs | startendtag tag attrs => AllowedStart refused tag attrs
  | fails => False
  | _ => True

variable {refused : List Char → Bool} {s s' : Sanitizer} {tag : List Char}
  {attrs : List (List Char × Option (List Char))} {e : Event} {events : List Event} {doc : List Item}

@[simp] theorem text_append (a b : List Item) : text (a ++ b) = text a ++ text b := List.flatMap_append

@[simp] theorem text_nil : text [] = [] := rfl

@[simp] theorem text_cons (i : Item) (rest : List Item) : text (i :: rest) = i.text ++ text rest := rfl

@[simp] theorem text_chars (d : List Char) : text (d.map .char) = escape false d := by
  simp [text, escape, List.flatMap_map, Item.text]

theorem a_not_simple : ['a'] ∉ simpleTags := by decide

theorem startTag_ok : s.startTag refused tag attrs = .ok s' ↔ AllowedStart refused tag attrs ∧
    s' = ⟨s.output ++ text (Event.starttag tag attrs).items, casefold tag :: s.stack⟩ := by
  unfold Sanitizer.startTag AllowedStart
  by_cases simple : casefold tag ∈ simpleTags ∧ attrs = []
  · obtain ⟨known, rfl⟩ := simple
    simp [known, Event.items, Item.text, eq_comm]
  rw [if_neg simple]
  cases attrs with
  | nil =>
    have unknown : casefold tag ∉ simpleTags := fun known => simple ⟨known, rfl⟩
    simp [unknown]
  | cons attr rest =>
    cases rest with
    | cons _ _ => simp
    | nil =>
      obtain ⟨name, value⟩ := attr
      dsimp only
      by_cases link : casefold tag = ['a'] ∧ casefold name = ['h', 'r', 'e', 'f']
      · rw [if_pos link]
        cases safe : safeLink refused (value.getD []) with
        | none => simp [safe]
        | some ok =>
          cases ok with
          | false => simp [safe]
          | true => simp [safe, link, Event.items, Item.text, eq_comm, a_not_simple]
      · rw [if_neg link]
        simp only [reduceCtorEq, false_iff, not_and]
        rintro (⟨-, no⟩ | ⟨name', value', eq, tag_, name_, -⟩)
        · cases no
        · simp only [List.cons.injEq, Prod.mk.injEq, and_true] at eq
          obtain ⟨rfl, rfl⟩ := eq
          exact absurd ⟨tag_, name_⟩ link

theorem endTag_ok : s.endTag tag = .ok s' ↔ nest id s.stack [Markup.closes (α := Char) (casefold tag)] = some s'.stack ∧
    s'.output = s.output ++ text [.closes (casefold tag)] := by
  obtain ⟨output, stack⟩ := s
  obtain ⟨output', stack'⟩ := s'
  cases stack with
  | nil => simp [Sanitizer.endTag, nest]
  | cons top rest =>
    by_cases same : top = casefold tag
    · simp [Sanitizer.endTag, nest, same, Item.text, eq_comm, and_comm]
    · simp [Sanitizer.endTag, nest, same]

theorem AllowedStart.markup (h : AllowedStart refused tag attrs) :
    (Event.starttag tag attrs).items.map Item.markup = [.opens (casefold tag)] := by
  rcases h with ⟨-, rfl⟩ | ⟨name, value, rfl, link, -, -⟩
  · rfl
  · rw [link]
    rfl

theorem nest_chars (stack : List (List Char)) (d : List Char) :
    nest id stack ((d.map Item.char).map Item.markup) = some stack := by
  induction d with
  | nil => rfl
  | cons c d ih => simpa [Item.markup] using ih

theorem startendtag_items (tag : List Char) (attrs : List (List Char × Option (List Char))) :
    (Event.startendtag tag attrs).items = (Event.starttag tag attrs).items ++ [.closes (casefold tag)] := by
  cases attrs <;> rfl

/-- One handler: the event is allowed and its tags match the open ones, and its items are written. -/
theorem handle_ok : s.handle refused e = .ok s' ↔ e.Allowed refused ∧
    nest id s.stack (e.items.map Item.markup) = some s'.stack ∧ s'.output = s.output ++ text e.items := by
  have written : ∀ d : List Char, Except.ok (s.write d) = (.ok s' : Except WelcomeContentError Sanitizer) ↔
      nest id s.stack ((d.map Item.char).map Item.markup) = some s'.stack ∧
        s'.output = s.output ++ text (d.map Item.char) := by
    intro d
    obtain ⟨output', stack'⟩ := s'
    rw [nest_chars, text_chars, Sanitizer.write]
    simp [eq_comm, and_comm]
  cases e with
  | starttag tag attrs =>
    refine startTag_ok.trans (and_congr_right fun allowed => ?_)
    obtain ⟨output', stack'⟩ := s'
    rw [allowed.markup]
    simp [eq_comm, and_comm]
  | startendtag tag attrs =>
    simp only [Sanitizer.handle, Except.bind_ok, startTag_ok, endTag_ok, startendtag_items, List.map_append,
      text_append, nest_append]
    constructor
    · rintro ⟨s₁, ⟨allowed, rfl⟩, moves, output⟩
      refine ⟨allowed, ?_, by simpa using output⟩
      rw [allowed.markup]
      exact moves
    · rintro ⟨allowed, moves, output⟩
      refine ⟨_, ⟨allowed, rfl⟩, ?_, by simpa using output⟩
      rw [allowed.markup] at moves
      exact moves
  | endtag tag => exact endTag_ok.trans (and_iff_right trivial).symm
  | data d => exact (written d).trans (and_iff_right trivial).symm
  | entityref name => exact (written _).trans (and_iff_right trivial).symm
  | charref name => exact (written _).trans (and_iff_right trivial).symm
  | skipped =>
    obtain ⟨output, stack⟩ := s
    obtain ⟨output', stack'⟩ := s'
    simp [Sanitizer.handle, Event.Allowed, Event.items, eq_comm, and_comm]
  | fails => simp [Sanitizer.handle, Event.Allowed]

theorem foldlM_ok : events.foldlM (Sanitizer.handle refused) s = .ok s' ↔ (∀ e ∈ events, e.Allowed refused) ∧
    nest id s.stack ((items events).map Item.markup) = some s'.stack ∧ s'.output = s.output ++ text (items events) := by
  induction events generalizing s with
  | nil =>
    obtain ⟨output, stack⟩ := s
    obtain ⟨output', stack'⟩ := s'
    simp [items, eq_comm, and_comm]
  | cons e events ih =>
    have split : items (e :: events) = e.items ++ items events := rfl
    simp only [List.foldlM_cons, Except.bind_ok, handle_ok, ih, split, List.map_append, text_append, nest_append,
      List.forall_mem_cons]
    constructor
    · rintro ⟨s₁, ⟨allowed, moves, output⟩, others, moves', output'⟩
      refine ⟨⟨allowed, others⟩, by rw [moves]; exact moves', ?_⟩
      rw [output', output, List.append_assoc]
    · rintro ⟨⟨allowed, others⟩, moves, output⟩
      obtain ⟨stack, first, rest⟩ := Option.bind_eq_some_iff.mp moves
      exact ⟨⟨s.output ++ text e.items, stack⟩, ⟨allowed, first, rfl⟩, others, rest, by simpa using output⟩

/-! ### The sanitiser on what it wrote -/

theorem casefold_known : ∀ name, name = ['a'] ∨ name ∈ simpleTags → casefold name = name := by
  have simple : ∀ name ∈ simpleTags, casefold name = name := by decide
  rintro name (rfl | known)
  · decide
  · exact simple name known

theorem items_group (known : ∀ i ∈ doc, i.Known) : items (group doc) = doc := by
  induction doc with
  | nil => rfl
  | cons i doc ih =>
    have rest := ih fun j hj => known j (by simp [hj])
    have first := known i (by simp)
    cases i with
    | simple name =>
      show [Item.simple (casefold name)] ++ items (group doc) = _
      rw [casefold_known name (.inr first), rest]
      rfl
    | link href => exact congrArg (Item.link href :: ·) rest
    | closes name =>
      show [Item.closes (casefold name)] ++ items (group doc) = _
      rw [casefold_known name first, rest]
      rfl
    | char c =>
      rw [group]
      split
      · next d events h => exact congrArg (Item.char c :: ·) (by rw [← rest, h]; rfl)
      · exact congrArg (Item.char c :: ·) rest

def Linked (refused : List Char → Bool) (doc : List Item) : Prop :=
  ∀ href, .link href ∈ doc → safeLink refused href = some true

theorem allowed_group (known : ∀ i ∈ doc, i.Known) (linked : Linked refused doc) :
    ∀ e ∈ group doc, e.Allowed refused := by
  induction doc with
  | nil => simp [group]
  | cons i doc ih =>
    have rest := ih (fun j hj => known j (by simp [hj])) fun href hj => linked href (by simp [hj])
    have first := known i (by simp)
    cases i with
    | simple name =>
      rw [group, List.forall_mem_cons]
      exact ⟨.inl ⟨by rw [casefold_known name (.inr first)]; exact first, rfl⟩, rest⟩
    | link href =>
      rw [group, List.forall_mem_cons]
      exact ⟨.inr ⟨_, _, rfl, by decide, by decide, linked href (by simp)⟩, rest⟩
    | closes name =>
      rw [group, List.forall_mem_cons]
      exact ⟨trivial, rest⟩
    | char c =>
      rw [group]
      split
      · next d events h =>
        rw [h, List.forall_mem_cons] at rest
        rw [List.forall_mem_cons]
        exact ⟨trivial, rest.2⟩
      · rw [List.forall_mem_cons]
        exact ⟨trivial, rest⟩

/-- A tag that an allowed start tag opens. -/
def Item.Opens (refused : List Char → Bool) : Item → Prop
  | simple name => name ∈ simpleTags
  | link href => safeLink refused href = some true
  | _ => True

theorem AllowedStart.opens (h : AllowedStart refused tag attrs) :
    ∀ i ∈ (Event.starttag tag attrs).items, i.Opens refused := by
  rcases h with ⟨known, rfl⟩ | ⟨name, value, rfl, -, -, safe⟩
  · simpa [Event.items, Item.Opens] using known
  · simpa [Event.items, Item.Opens] using safe

theorem Event.Allowed.opens (h : e.Allowed refused) : ∀ i ∈ e.items, i.Opens refused := by
  have chars : ∀ d : List Char, ∀ i ∈ d.map Item.char, i.Opens refused := by
    intro d i mem
    obtain ⟨c, -, rfl⟩ := List.mem_map.mp mem
    trivial
  cases e with
  | starttag tag attrs => exact AllowedStart.opens h
  | startendtag tag attrs =>
    rw [startendtag_items]
    intro i mem
    rcases List.mem_append.mp mem with first | last
    · exact AllowedStart.opens h i first
    · obtain rfl := List.mem_singleton.mp last
      trivial
  | endtag tag => simp [Event.items, Item.Opens]
  | data d => exact chars d
  | entityref name => exact chars _
  | charref name => exact chars _
  | skipped => simp [Event.items]
  | fails => simp [Event.items]

theorem safeLink_nil : safeLink refused [] = some false := by
  simp [safeLink, Url.urlsplit, Url.splitScheme, Url.cleaned]

theorem known_of_opens (opens : ∀ i ∈ doc, i.Opens refused) {stack left : List (List Char)}
    (opened : ∀ name ∈ stack, name = ['a'] ∨ name ∈ simpleTags)
    (moves : nest id stack (doc.map Item.markup) = some left) : ∀ i ∈ doc, i.Known := by
  induction doc generalizing stack with
  | nil => simp
  | cons i doc ih =>
    rw [List.forall_mem_cons] at opens ⊢
    obtain ⟨first, rest⟩ := opens
    cases i with
    | simple name =>
      have opened : ∀ n ∈ name :: stack, n = ['a'] ∨ n ∈ simpleTags := List.forall_mem_cons.mpr ⟨.inr first, opened⟩
      exact ⟨first, ih rest opened moves⟩
    | link href =>
      have opened : ∀ n ∈ ['a'] :: stack, n = ['a'] ∨ n ∈ simpleTags := List.forall_mem_cons.mpr ⟨.inl rfl, opened⟩
      refine ⟨?_, ih rest opened moves⟩
      rintro rfl
      have safe : safeLink refused [] = some true := first
      rw [safeLink_nil] at safe
      cases safe
    | closes name =>
      obtain ⟨top, outer, rfl, same, rest_moves⟩ := nest_closes_some moves
      obtain ⟨top_, outer_⟩ := List.forall_mem_cons.mp opened
      obtain rfl : top = name := same
      exact ⟨top_, ih rest outer_ rest_moves⟩
    | char c => exact ⟨trivial, ih rest opened moves⟩

/-- What is accepted, as a document. -/
structure Accepted (refused : List Char → Bool) (doc : List Item) : Prop where
  known : ∀ i ∈ doc, i.Known
  linked : Linked refused doc
  nested : Nested id (doc.map Item.markup)

theorem accepted_of_foldlM (h : events.foldlM (Sanitizer.handle refused) ⟨[], []⟩ = .ok s') (closed : s'.stack = []) :
    Accepted refused (items events) ∧ s'.output = text (items events) := by
  obtain ⟨allowed, moves, output⟩ := foldlM_ok.mp h
  have opens : ∀ i ∈ items events, i.Opens refused := by
    intro i mem
    obtain ⟨e, he, hi⟩ := List.mem_flatMap.mp mem
    exact (allowed e he).opens i hi
  rw [closed] at moves
  exact ⟨⟨known_of_opens opens (by simp) moves, fun href mem => opens _ mem, moves⟩, output⟩

theorem Accepted.foldlM (h : Accepted refused doc) :
    (group doc).foldlM (Sanitizer.handle refused) ⟨[], []⟩ = .ok ⟨text doc, []⟩ := by
  refine foldlM_ok.mpr ⟨allowed_group h.known h.linked, ?_, ?_⟩
  · rw [items_group h.known]
    exact h.nested
  · rw [items_group h.known]
    rfl

/-! ### Spaces around a text -/

def Item.isSpace : Item → Bool
  | char c => SalonBooking.isSpace c
  | _ => false

theorem Item.text_ends (i : Item) :
    (i.isSpace = true ∧ ∃ c, i.text = [c] ∧ SalonBooking.isSpace c = true) ∨
      (i.isSpace = false ∧ (∃ c l, i.text = c :: l ∧ SalonBooking.isSpace c = false) ∧
        ∃ c l, i.text = l ++ [c] ∧ SalonBooking.isSpace c = false) := by
  have angle : SalonBooking.isSpace '<' = false ∧ SalonBooking.isSpace '>' = false ∧ SalonBooking.isSpace '&' = false ∧
      SalonBooking.isSpace ';' = false := by decide
  have tag : ∀ l : List Char, (∃ c t, '<' :: (l ++ ['>']) = c :: t ∧ SalonBooking.isSpace c = false) ∧
      ∃ c t, '<' :: (l ++ ['>']) = t ++ [c] ∧ SalonBooking.isSpace c = false := fun l =>
    ⟨⟨_, _, rfl, angle.1⟩, _, _, (List.cons_append ..).symm, angle.2.1⟩
  cases i with
  | simple name => exact .inr ⟨rfl, tag name⟩
  | link href =>
    have whole : linkTag href = '<' :: (['a', ' ', 'h', 'r', 'e', 'f', '=', '"'] ++ escape true href ++ ['"'] ++ ['>']) := by
      simp [linkTag]
    rw [Item.text, whole]
    exact .inr ⟨rfl, tag _⟩
  | closes name => exact .inr ⟨rfl, tag ('/' :: name)⟩
  | char c =>
    by_cases space : SalonBooking.isSpace c = true
    · refine .inl ⟨space, c, ?_, space⟩
      have plain : c ≠ '&' ∧ c ≠ '<' ∧ c ≠ '>' := by
        refine ⟨?_, ?_, ?_⟩ <;> rintro rfl <;> revert space <;> decide
      simp [Item.text, escapeChar, plain]
    · rw [Bool.not_eq_true] at space
      refine .inr ⟨space, ?_⟩
      simp only [Item.text, escapeChar, Bool.false_eq_true, false_and, if_false]
      split
      · exact ⟨⟨'&', _, rfl, angle.2.2.1⟩, ';', ['&', 'a', 'm', 'p'], rfl, angle.2.2.2⟩
      split
      · exact ⟨⟨'&', _, rfl, angle.2.2.1⟩, ';', ['&', 'l', 't'], rfl, angle.2.2.2⟩
      split
      · exact ⟨⟨'&', _, rfl, angle.2.2.1⟩, ';', ['&', 'g', 't'], rfl, angle.2.2.2⟩
      · exact ⟨⟨c, [], rfl, space⟩, c, [], rfl, space⟩

theorem dropWhile_flatMap {α β : Type} {f : α → List β} {p : β → Bool} {q : α → Bool}
    (space : ∀ a, q a = true → ∃ b, f a = [b] ∧ p b = true)
    (other : ∀ a, q a = false → ∃ b l, f a = b :: l ∧ p b = false) (l : List α) :
    (l.flatMap f).dropWhile p = (l.dropWhile q).flatMap f := by
  induction l with
  | nil => rfl
  | cons a l ih =>
    by_cases h : q a = true
    · obtain ⟨b, hb, hp⟩ := space a h
      rw [List.flatMap_cons, hb, List.dropWhile_cons_of_pos h, ← ih]
      simp [hp]
    · rw [Bool.not_eq_true] at h
      obtain ⟨b, t, hb, hp⟩ := other a h
      rw [List.dropWhile_cons_of_neg (by simp [h]), List.flatMap_cons, hb]
      simp [hp]

/-- A document without the spaces around it. -/
def trim (doc : List Item) : List Item :=
  ((doc.dropWhile Item.isSpace).reverse.dropWhile Item.isSpace).reverse

theorem strip_text (doc : List Item) : (strip (String.ofList (text doc))).toList = text (trim doc) := by
  have left : ∀ d : List Item, (text d).dropWhile SalonBooking.isSpace = text (d.dropWhile Item.isSpace) := by
    refine dropWhile_flatMap ?_ ?_
    · intro i h
      rcases i.text_ends with ⟨-, c, hc, hs⟩ | ⟨no, -, -⟩
      · exact ⟨c, hc, hs⟩
      · rw [h] at no
        cases no
    · intro i h
      rcases i.text_ends with ⟨yes, -⟩ | ⟨-, first, -⟩
      · rw [h] at yes
        cases yes
      · exact first
  have reversed : ∀ d : List Item, (text d).reverse = d.reverse.flatMap (fun i => i.text.reverse) := by
    intro d
    simp [text, List.reverse_flatMap, Function.comp_def]
  have right : ∀ d : List Item, (text d).reverse.dropWhile SalonBooking.isSpace =
      (d.reverse.dropWhile Item.isSpace).flatMap (fun i => i.text.reverse) := by
    intro d
    rw [reversed]
    refine dropWhile_flatMap ?_ ?_ _
    · intro i h
      rcases i.text_ends with ⟨-, c, hc, hs⟩ | ⟨no, -, -⟩
      · exact ⟨c, by rw [hc]; rfl, hs⟩
      · rw [h] at no
        cases no
    · intro i h
      rcases i.text_ends with ⟨yes, -⟩ | ⟨-, -, c, l, hc, hs⟩
      · rw [h] at yes
        cases yes
      · exact ⟨c, l.reverse, by rw [hc]; simp, hs⟩
  rw [strip, String.toList_ofList, String.toList_ofList, left, right, trim, ← List.reverse_inj, List.reverse_reverse,
    reversed, List.reverse_reverse]

theorem trim_sublist (doc : List Item) : (trim doc).Sublist doc := by
  have last := (List.dropWhile_sublist Item.isSpace (l := (doc.dropWhile Item.isSpace).reverse)).reverse
  rw [List.reverse_reverse] at last
  exact last.trans (List.dropWhile_sublist _)

theorem trim_eq_iff : trim doc = doc ↔ (∀ i ∈ doc.head?, i.isSpace = false) ∧ ∀ i ∈ doc.getLast?, i.isSpace = false := by
  have kept : ∀ d : List Item, d.dropWhile Item.isSpace = d ↔ ∀ i ∈ d.head?, i.isSpace = false := by
    intro d
    rw [List.dropWhile_eq_self_iff]
    cases d <;> simp
  have last : doc.reverse.head? = doc.getLast? := List.head?_reverse
  constructor
  · intro h
    have first := (List.dropWhile_sublist Item.isSpace (l := doc)).length_le
    have second := (List.dropWhile_sublist Item.isSpace (l := (doc.dropWhile Item.isSpace).reverse)).length_le
    have whole := congrArg List.length h
    rw [trim, List.length_reverse] at whole
    rw [List.length_reverse] at second
    have none_ : doc.dropWhile Item.isSpace = doc := (List.dropWhile_sublist _).eq_of_length (by omega)
    rw [trim, none_, List.reverse_eq_iff] at h
    exact ⟨(kept doc).mp none_, last ▸ (kept _).mp h⟩
  · rintro ⟨first, second⟩
    rw [trim, (kept doc).mpr first, (kept _).mpr (last ▸ second), List.reverse_reverse]

def Item.size : Item → Nat
  | simple name => name.length + 2
  | link href => 11 + (href.map fun c => (escapeChar true c).length).sum
  | closes name => name.length + 3
  | char c => (escapeChar false c).length

theorem length_text (doc : List Item) : (text doc).length = (doc.map Item.size).sum := by
  have one : ∀ i : Item, i.text.length = i.size := by
    intro i
    cases i with
    | simple name => simp [Item.text, Item.size, startTag]
    | link href => simp [Item.text, Item.size, linkTag, escape, List.length_flatMap]; omega
    | closes name => simp [Item.text, Item.size, endTag]
    | char c => rfl
  rw [text, List.length_flatMap]
  exact congrArg List.sum (List.map_congr_left fun i _ => one i)

theorem Item.size_pos (i : Item) : 0 < i.size := by
  rcases i.text_ends with ⟨-, c, h, -⟩ | ⟨-, ⟨c, l, h, -⟩, -⟩
  · have := length_text [i]
    simp [h] at this
    omega
  · have := length_text [i]
    simp [h] at this
    omega

theorem eq_of_sublist {part : List Item} (h : part.Sublist doc) (same : text part = text doc) : part = doc := by
  have sizes : (part.map Item.size).sum = (doc.map Item.size).sum := by
    rw [← length_text, ← length_text, same]
  clear same
  induction h with
  | slnil => rfl
  | cons i sub ih =>
    have le := (sub.map Item.size).sum_le_sum fun _ _ => Nat.zero_le _
    have := i.size_pos
    simp only [List.map_cons, List.sum_cons] at sizes
    omega
  | cons_cons i sub ih => rw [ih (by simpa using sizes)]

/-! ### The output -/

/-- What `sanitize_welcome_html` accepts. -/
theorem sanitizeWelcomeHtml_ok {read : List Char → List Event} {value out : String} :
    sanitizeWelcomeHtml read refused value = .ok out ↔ (strip value).toList ≠ [] ∧ (strip value).toList.length ≤ 3500 ∧
      ∃ s', (read (strip value).toList).foldlM (Sanitizer.handle refused) ⟨[], []⟩ = .ok s' ∧ s'.stack = [] ∧
        String.ofList s'.output = out := by
  simp only [sanitizeWelcomeHtml, Except.bind_ok, Except.require_ok, Except.pure_ok, exists_const]

/-- An event of sanitised text: a tag without attributes, a link to an absolute HTTPS URL, the end of one, or text. -/
def Event.Clean : Event → Prop
  | starttag name attrs => (name ∈ simpleTags ∧ attrs = []) ∨ (name = ['a'] ∧
      ∃ href, attrs = [(['h', 'r', 'e', 'f'], some href)] ∧ Url.Absolute ['h', 't', 't', 'p', 's'] href)
  | endtag name => name = ['a'] ∨ name ∈ simpleTags
  | data _ => True
  | _ => False

/-- What the sanitiser is for: safe and well-nested markup that may be stored, and that it leaves as it is. -/
structure Meets (p : HtmlParser) (refused : List Char → Bool) (out : String) : Prop where
  clean : ∀ e ∈ p.events out.toList, e.Clean
  nested : Nested id ((items (p.events out.toList)).map Item.markup)
  stored : out.toList.length ≤ 7000
  stable : sanitizeWelcomeHtml p.events refused out = .ok out

/-- A document that shows something, neither begins nor ends with a space and takes at most 3500 characters when it is
written. -/
structure Fits (doc : List Item) : Prop where
  some_ : doc ≠ []
  starts : ∀ i ∈ doc.head?, i.isSpace = false
  ends : ∀ i ∈ doc.getLast?, i.isSpace = false
  short : (doc.map Item.size).sum ≤ 3500

theorem absolute_of_safeLink {href : List Char} (h : safeLink refused href = some true) :
    Url.Absolute ['h', 't', 't', 'p', 's'] href := by
  obtain ⟨u, split, safe⟩ := Option.map_eq_some_iff.mp h
  simp only [Bool.and_eq_true, beq_iff_eq] at safe
  obtain ⟨⟨scheme, host⟩, -⟩ := safe
  rw [← scheme]
  exact Url.absolute_of_urlsplit split (by simp [scheme]) host

theorem clean_group (known : ∀ i ∈ doc, i.Known) (linked : Linked refused doc) : ∀ e ∈ group doc, e.Clean := by
  induction doc with
  | nil => simp [group]
  | cons i doc ih =>
    have rest := ih (fun j hj => known j (by simp [hj])) fun href hj => linked href (by simp [hj])
    have first := known i (by simp)
    cases i with
    | simple name => exact List.forall_mem_cons.mpr ⟨.inl ⟨first, rfl⟩, rest⟩
    | link href =>
      exact List.forall_mem_cons.mpr ⟨.inr ⟨rfl, href, rfl, absolute_of_safeLink (linked href (by simp))⟩, rest⟩
    | closes name => exact List.forall_mem_cons.mpr ⟨first, rest⟩
    | char c =>
      rw [group]
      split
      · next d events h =>
        rw [h, List.forall_mem_cons] at rest
        exact List.forall_mem_cons.mpr ⟨trivial, rest.2⟩
      · exact List.forall_mem_cons.mpr ⟨trivial, rest⟩

theorem Accepted.stable_iff (p : HtmlParser) (h : Accepted refused doc) :
    sanitizeWelcomeHtml p.events refused (String.ofList (text doc)) = .ok (String.ofList (text doc)) ↔ Fits doc := by
  have known : ∀ i ∈ trim doc, i.Known := fun i mem => h.known i ((trim_sublist doc).subset mem)
  rw [sanitizeWelcomeHtml_ok, strip_text, p.reads _ known]
  constructor
  · rintro ⟨some_, short, s', runs, closed, eq⟩
    obtain ⟨-, output⟩ := accepted_of_foldlM runs closed
    rw [items_group known] at output
    have same : text (trim doc) = text doc := output.symm.trans (by simpa using congrArg String.toList eq)
    have whole := eq_of_sublist (trim_sublist doc) same
    obtain ⟨starts, ends⟩ := trim_eq_iff.mp whole
    rw [whole] at some_ short
    refine ⟨?_, starts, ends, by rwa [length_text] at short⟩
    rintro rfl
    exact some_ rfl
  · rintro ⟨some_, starts, ends, short⟩
    rw [trim_eq_iff.mpr ⟨starts, ends⟩]
    refine ⟨?_, by rwa [length_text], _, h.foldlM, rfl, rfl⟩
    intro none_
    obtain ⟨i, rest, rfl⟩ := List.exists_cons_of_ne_nil some_
    have := i.size_pos
    have := length_text (i :: rest)
    rw [none_] at this
    simp at this
    omega

/--
**What is accepted is safe and well nested, and the rest holds exactly when the rendered text fits.** The output always
has only allowed tags, closed in their order, and absolute HTTPS links; it may be stored, is accepted again and comes
back as it is if and only if what the input shows is not empty, has no space at its ends and takes at most 3500
characters once it is escaped.
-/
theorem sanitized_meets_iff (p : HtmlParser) {value out : String}
    (h : sanitizeWelcomeHtml p.events refused value = .ok out) :
    Meets p refused out ↔ Fits (items (p.events (strip value).toList)) := by
  obtain ⟨-, -, s', runs, closed, rfl⟩ := sanitizeWelcomeHtml_ok.mp h
  obtain ⟨accepted, output⟩ := accepted_of_foldlM runs closed
  rw [output]
  generalize items (p.events (strip value).toList) = doc at accepted output ⊢
  constructor
  · intro meets
    exact (accepted.stable_iff p).mp meets.stable
  · intro fits
    have read : p.events (String.ofList (text doc)).toList = group doc := by
      rw [String.toList_ofList, p.reads doc accepted.known]
    refine ⟨?_, ?_, ?_, (accepted.stable_iff p).mpr fits⟩
    · rw [read]
      exact clean_group accepted.known accepted.linked
    · rw [read, items_group accepted.known]
      exact accepted.nested
    · rw [String.toList_ofList, length_text]
      have := fits.short
      omega

/-! ### A reader of markup -/

/-- A tag after its `<`, and what follows it. -/
def readTag (E : Entities) : List Char → Option (Event × List Char)
  | '/' :: rest =>
    match rest.dropWhile (· ≠ '>') with
    | _ :: after => some (.endtag (rest.takeWhile (· ≠ '>')), after)
    | [] => none
  | rest =>
    let name := rest.takeWhile Url.isAsciiAlpha
    match rest.dropWhile Url.isAsciiAlpha with
    | '>' :: after => if name = [] then none else some (.starttag name [], after)
    | ' ' :: more =>
      match more.dropWhile (· ≠ '=') with
      | '=' :: '"' :: quoted =>
        match quoted.dropWhile (· ≠ '"') with
        | '"' :: '>' :: after =>
          some (.starttag name [(more.takeWhile (· ≠ '='), some (unescape E (quoted.takeWhile (· ≠ '"'))))], after)
        | _ => none
      | _ => none
    | _ => none

/-- Tags with at most one quoted attribute, and text with references. -/
def readEvents (E : Entities) : Nat → List Char → List Event
  | 0, _ => []
  | _ + 1, [] => []
  | n + 1, c :: rest =>
    if c = '<' then
      match readTag E rest with
      | some (e, after) => e :: readEvents E n after
      | none => .data ['<'] :: readEvents E n rest
    else .data (unescape E ((c :: rest).takeWhile (· ≠ '<'))) :: readEvents E n ((c :: rest).dropWhile (· ≠ '<'))

variable {E : Entities} {r : List Char}

theorem readTag_start {c : Char} (h : Url.isAsciiAlpha c = true) {name : List Char}
    (letters : ∀ x ∈ name, Url.isAsciiAlpha x = true) :
    readTag E (c :: name ++ '>' :: r) = some (.starttag (c :: name) [], r) := by
  obtain ⟨taken, left⟩ := takeWhile_append_cons (s := c :: name) (r := r) (List.forall_mem_cons.mpr ⟨h, letters⟩)
    (show Url.isAsciiAlpha '>' = false by decide)
  have letter : c ≠ '/' := by
    rintro rfl
    revert h
    decide
  rw [readTag]
  · simp only [taken, left]
    simp
  · intro t h
    exact letter (List.cons.inj h).1

theorem readTag_end {name : List Char} (letters : ∀ x ∈ name, x ≠ '>') :
    readTag E ('/' :: name ++ '>' :: r) = some (.endtag name, r) := by
  obtain ⟨taken, left⟩ := takeWhile_append_cons (p := fun x => decide (x ≠ '>')) (s := name) (c := '>') (r := r)
    (by simpa using letters) (by simp)
  simp only [List.cons_append, readTag, taken, left]

theorem readTag_link (basic : E.Basic) (href : List Char) :
    readTag E (['a', ' ', 'h', 'r', 'e', 'f', '=', '"'] ++ escape true href ++ ['"', '>'] ++ r) =
      some (.starttag ['a'] [(['h', 'r', 'e', 'f'], some href)], r) := by
  obtain ⟨taken, left⟩ := takeWhile_append_cons (p := fun x => !decide (x = '"')) (s := escape true href) (c := '"')
    (r := '>' :: r) (fun x mem => by simpa using (escape_plain mem).2.2 rfl) (by simp)
  have alpha : Url.isAsciiAlpha 'a' = true ∧ Url.isAsciiAlpha ' ' = false := by decide
  simp [readTag, alpha, taken, left, unescape_escape basic]

theorem simple_letters : ∀ name ∈ simpleTags, ∃ c t, name = c :: t ∧ Url.isAsciiAlpha c = true ∧
    ∀ x ∈ t, Url.isAsciiAlpha x = true := by
  intro name mem
  have all : ∀ n ∈ simpleTags, n ≠ [] ∧ ∀ x ∈ n, Url.isAsciiAlpha x = true := by
    simp [simpleTags, Url.isAsciiAlpha]
  obtain ⟨some_, letters⟩ := all name mem
  obtain ⟨c, t, rfl⟩ := List.exists_cons_of_ne_nil some_
  exact ⟨c, t, rfl, letters c (by simp), fun x hx => letters x (by simp [hx])⟩

theorem group_chars {d : List Char} (some_ : d ≠ []) {doc : List Item} (stops : ∀ c, doc.head? ≠ some (.char c)) :
    group (d.map Item.char ++ doc) = .data d :: group doc := by
  induction d with
  | nil => exact absurd rfl some_
  | cons c d ih =>
    cases d with
    | nil =>
      cases doc with
      | nil => rfl
      | cons i doc =>
        cases i with
        | char x => exact absurd rfl (stops x)
        | simple name => rfl
        | link href => rfl
        | closes name => rfl
    | cons x d =>
      have next := ih (by simp)
      rw [List.map_cons, List.cons_append, group, next]

theorem chars_split (doc : List Item) : ∃ (d : List Char) (more : List Item), doc = d.map Item.char ++ more ∧
    ∀ x, more.head? ≠ some (.char x) := by
  induction doc with
  | nil => exact ⟨[], [], rfl, by simp⟩
  | cons i doc ih =>
    cases i with
    | char c =>
      obtain ⟨d, more, rfl, stops⟩ := ih
      exact ⟨c :: d, more, rfl, stops⟩
    | simple name => exact ⟨[], _, rfl, by simp⟩
    | link href => exact ⟨[], _, rfl, by simp⟩
    | closes name => exact ⟨[], _, rfl, by simp⟩

theorem readEvents_text (basic : E.Basic) (n : Nat) (doc : List Item) (known : ∀ i ∈ doc, i.Known)
    (enough : (text doc).length < n) : readEvents E n (text doc) = group doc := by
  induction n generalizing doc with
  | zero => omega
  | succ n ih =>
    cases doc with
    | nil => rfl
    | cons i doc =>
      obtain ⟨first, others⟩ := List.forall_mem_cons.mp known
      have tag : ∀ {e : Event} {l : List Char}, i.text = '<' :: l → readTag E (l ++ text doc) = some (e, text doc) →
          readEvents E (n + 1) (text (i :: doc)) = e :: group doc := by
        intro e l hl read
        have shorter : (text doc).length < n := by
          rw [text_cons, hl] at enough
          simp only [List.cons_append, List.length_cons, List.length_append] at enough
          omega
        rw [text_cons, hl, List.cons_append, readEvents, if_pos rfl, read]
        exact congrArg (e :: ·) (ih doc others shorter)
      cases i with
      | simple name =>
        obtain ⟨c, t, rfl, letter, letters⟩ := simple_letters name first
        refine tag (l := c :: t ++ ['>']) rfl ?_
        simpa using readTag_start (r := text doc) letter letters
      | link href => exact tag rfl (readTag_link basic href)
      | closes name =>
        have letters : ∀ x ∈ name, x ≠ '>' := by
          rintro x mem rfl
          rcases first with rfl | simple
          · revert mem
            decide
          · obtain ⟨c, t, rfl, letter, letters⟩ := simple_letters name simple
            rcases List.mem_cons.mp mem with rfl | mem
            · revert letter
              decide
            · exact absurd (letters _ mem) (by decide)
        refine tag (l := '/' :: name ++ ['>']) rfl ?_
        simpa using readTag_end (r := text doc) letters
      | char c =>
        -- the characters up to the next tag are one piece of data
        obtain ⟨d, more, rfl, stops⟩ := chars_split doc
        have others' : ∀ i ∈ more, i.Known := fun i mem => others i (List.mem_append_right _ mem)
        have grouped : group (.char c :: (d.map Item.char ++ more)) = .data (c :: d) :: group more :=
          group_chars (d := c :: d) (by simp) stops
        have whole : text (.char c :: (d.map Item.char ++ more)) = escape false (c :: d) ++ text more := by
          rw [text_cons, text_append, text_chars, ← List.append_assoc]
          rfl
        obtain ⟨x, t, head⟩ : ∃ x t, escape false (c :: d) = x :: t := by
          have := (Item.char c).size_pos
          obtain ⟨x, t, h⟩ := List.exists_cons_of_length_pos (show 0 < (escapeChar false c).length from this)
          exact ⟨x, t ++ escape false d, by rw [← List.cons_append, ← h]; rfl⟩
        have plain : ∀ y ∈ escape false (c :: d), (!decide (y = '<')) = true := fun y mem => by
          simpa using (escape_plain mem).1
        have cut : (escape false (c :: d) ++ text more).takeWhile (fun y => !decide (y = '<')) = escape false (c :: d) ∧
            (escape false (c :: d) ++ text more).dropWhile (fun y => !decide (y = '<')) = text more := by
          cases more with
          | nil =>
            rw [text_nil, List.append_nil, List.takeWhile_eq_self_iff, List.dropWhile_eq_nil_iff]
            exact ⟨plain, plain⟩
          | cons i more =>
            obtain ⟨l, hl⟩ : ∃ l, text (i :: more) = '<' :: l := by
              cases i with
              | char y => exact absurd rfl (stops y)
              | simple name => exact ⟨_, rfl⟩
              | link href => exact ⟨_, rfl⟩
              | closes name => exact ⟨_, rfl⟩
            rw [hl]
            exact takeWhile_append_cons plain (by decide)
        have shorter : (text more).length < n := by
          rw [whole, head] at enough
          simp only [List.cons_append, List.length_cons, List.length_append] at enough
          omega
        have angle : x ≠ '<' := (escape_plain (head ▸ List.mem_cons_self : x ∈ escape false (c :: d))).1
        rw [whole, grouped, head, List.cons_append, readEvents, if_neg angle, ← List.cons_append, ← head]
        simp only [ne_eq, decide_not, cut.1, cut.2, unescape_escape basic, ih more others' shorter]

theorem telegram_basic : Html.telegram.Basic := by
  refine ⟨?_, ?_, ?_, ?_⟩ <;> rfl

def markupReader : HtmlParser where
  events s := readEvents Html.telegram (s.length + 1) s
  reads _ known := readEvents_text telegram_basic _ _ known (by omega)

def anyAuthority (_ : List Char) : Bool := false

theorem sanitized_meets_iff_bold :
    sanitizeWelcomeHtml markupReader.events anyAuthority " <b>a</b> & <a href=\"https://b.c\">d</a>" =
        .ok "<b>a</b> &amp; <a href=\"https://b.c\">d</a>" ∧
      Meets markupReader anyAuthority "<b>a</b> &amp; <a href=\"https://b.c\">d</a>" := by
  have accepted : sanitizeWelcomeHtml markupReader.events anyAuthority " <b>a</b> & <a href=\"https://b.c\">d</a>" =
      .ok "<b>a</b> &amp; <a href=\"https://b.c\">d</a>" := by decide +kernel
  refine ⟨accepted, (sanitized_meets_iff markupReader accepted).mpr ⟨?_, ?_, ?_, ?_⟩⟩ <;> decide +kernel

def ampersands (n : Nat) : List Char := List.replicate n '&'

theorem unescape_ampersands (n : Nat) : unescape E (ampersands n) = ampersands n := by
  induction n with
  | zero => rfl
  | succ n ih =>
    have bare : charref (ampersands n) = none := by
      cases n with
      | zero => rfl
      | succ n => simp [ampersands, List.replicate_succ, charref, isNameChar]
    rw [ampersands, List.replicate_succ, unescape, unescapeAfter, if_pos rfl]
    rw [show List.replicate n '&' = ampersands n from rfl, bare]
    exact congrArg ('&' :: ·) ih

theorem sanitize_ampersands {n : Nat} (some_ : 0 < n) (short : n ≤ 3500) :
    sanitizeWelcomeHtml markupReader.events anyAuthority (String.ofList (ampersands n)) =
      .ok (String.ofList (escape false (ampersands n))) := by
  have only : ∀ c ∈ ampersands n, c = '&' := fun c mem => List.eq_of_mem_replicate mem
  have stripped : strip (String.ofList (ampersands n)) = String.ofList (ampersands n) := by
    refine strip_eq fun c mem => ?_
    rw [String.toList_ofList] at mem
    rw [only c mem]
    decide
  have plain : ∀ c ∈ ampersands n, (!decide (c = '<')) = true := fun c mem => by rw [only c mem]; decide
  have read : markupReader.events (ampersands n) = [.data (ampersands n)] := by
    obtain ⟨n, rfl⟩ : ∃ k, n = k + 1 := ⟨n - 1, by omega⟩
    have taken := List.takeWhile_eq_self_iff.mpr plain
    have left := List.dropWhile_eq_nil_iff.mpr plain
    have first : ampersands (n + 1) = '&' :: ampersands n := rfl
    show readEvents Html.telegram _ _ = _
    rw [first, readEvents, if_neg (by decide), ← first]
    simp only [ne_eq, decide_not, taken, left, unescape_ampersands]
    cases (ampersands (n + 1)).length <;> rfl
  rw [sanitizeWelcomeHtml_ok, stripped, String.toList_ofList, read]
  refine ⟨?_, ?_, ⟨escape false (ampersands n), []⟩, rfl, rfl, rfl⟩
  · intro none_
    have := congrArg List.length none_
    simp [ampersands] at this
    omega
  · simpa [ampersands] using short

theorem length_escape_ampersands (n : Nat) : (escape false (ampersands n)).length = 5 * n := by
  induction n with
  | zero => rfl
  | succ n ih =>
    have split : escape false (ampersands (n + 1)) = escapeChar false '&' ++ escape false (ampersands n) := rfl
    rw [split, List.length_append, ih]
    show 5 + 5 * n = _
    omega

/-- An accepted text of 1401 characters is too long to be stored. -/
theorem sanitized_too_long : ∃ out, sanitizeWelcomeHtml markupReader.events anyAuthority (String.ofList (ampersands 1401)) =
    .ok out ∧ 7000 < out.toList.length := by
  refine ⟨_, sanitize_ampersands (by omega) (by omega), ?_⟩
  rw [String.toList_ofList, length_escape_ampersands]
  omega

-- a space that is written as a reference is stripped by the second application
example : sanitizeWelcomeHtml markupReader.events anyAuthority "&#32;a" = .ok " a" ∧
    sanitizeWelcomeHtml markupReader.events anyAuthority " a" = .ok "a" := by decide +kernel

end Welcome

end SalonBooking
