import SalonBooking.Lib.Html
import SalonBooking.Lib.Nesting
import SalonBooking.Domain.Enums

/-!
# Telegram texts

`telegram_text.py`: lengths in UTF-16 code units, and the splitter of a long HTML message over the events of the
standard parser. A text is the list of its code points.
-/

namespace SalonBooking

open Lib Html Markup

/-- `telegram_text_length` of a plain text. -/
def telegramTextLength (text : String) : Nat := units text.toList

def fitsTelegramCaption (text : String) : Bool := telegramTextLength text ≤ 1024

/-- `_take_utf16_prefix`, after a prefix of so many units. -/
def takeUtf16Prefix (limit : Int) (used : Nat) : List Char → List Char × List Char
  | [] => ([], [])
  | c :: rest =>
    if limit < used + utf16Units c then ([], c :: rest)
    else
      let taken := takeUtf16Prefix limit (used + utf16Units c) rest
      (c :: taken.1, taken.2)

/-- The events of `HTMLParser` with `convert_charrefs=False`, tags with the text they stand in. -/
inductive Token
  | starttag (tag source : List Char)
  | startendtag (tag source : List Char)
  | endtag (tag source : List Char)
  | data (data : List Char)
  | entityref (name : List Char)
  | charref (name : List Char)
  deriving DecidableEq

namespace Token

/-- The text that the token was read from. -/
def source : Token → List Char
  | starttag _ source | startendtag _ source | endtag _ source => source
  | data d => d
  | entityref name => '&' :: (name ++ [';'])
  | charref name => '&' :: '#' :: (name ++ [';'])

def text (tokens : List Token) : List Char := tokens.flatMap source

end Token

/-! ### `_TelegramHtmlSplitter` -/

/-- `_OpenTag`. -/
structure OpenTag where
  name : List Char
  source : List Char
  deriving DecidableEq

structure TelegramHtmlSplitter where
  limit : Int
  visibleLength : Nat
  parts : List (List Char)
  chunks : List (List Char)
  openTags : List OpenTag

def endTagText (tag : List Char) : List Char := '<' :: '/' :: (tag ++ ['>'])

/-- `get_starttag_text() or f"<{tag}>"`. -/
def startTagText (tag source : List Char) : List Char := if source = [] then '<' :: (tag ++ ['>']) else source

namespace TelegramHtmlSplitter

/-- `_flush`. -/
def flush (s : TelegramHtmlSplitter) : TelegramHtmlSplitter :=
  if s.visibleLength = 0 then s
  else
    { s with
      chunks := s.chunks ++ [(s.parts ++ s.openTags.reverse.map fun tag => endTagText tag.name).flatten]
      parts := s.openTags.map (·.source)
      visibleLength := 0 }

/-- The loop of `_append_visible`; `none` when it still runs after so many rounds. -/
def appendPrefixes : Nat → TelegramHtmlSplitter → List Char → Option TelegramHtmlSplitter
  | _, s, [] => some s
  | 0, _, _ :: _ => none
  | rounds + 1, s, remainder =>
    let taken := takeUtf16Prefix (s.limit - s.visibleLength) 0 remainder
    let s := if taken.1 = [] then s
      else { s with parts := s.parts ++ [taken.1], visibleLength := s.visibleLength + units taken.1 }
    appendPrefixes rounds (if taken.2 = [] then s else s.flush) taken.2

/-- `_append_visible`. -/
def appendVisible (rounds : Nat) (s : TelegramHtmlSplitter) (source visible : List Char) : Option TelegramHtmlSplitter :=
  let size := units visible
  if (size : Int) ≤ s.limit - s.visibleLength then
    some { s with parts := s.parts ++ [source], visibleLength := s.visibleLength + size }
  else if source ≠ visible then
    let s := s.flush
    some { s with parts := s.parts ++ [source], visibleLength := size }
  else appendPrefixes rounds s visible

def handle (E : Entities) (rounds : Nat) (s : TelegramHtmlSplitter) : Token → Option TelegramHtmlSplitter
  | .starttag tag source =>
    let source := startTagText tag source
    some { s with parts := s.parts ++ [source], openTags := s.openTags ++ [⟨tag, source⟩] }
  | .startendtag tag source =>
    some { s with parts := s.parts ++ [if source = [] then '<' :: (tag ++ ['/', '>']) else source] }
  | .endtag tag _ =>
    some { s with
      parts := s.parts ++ [endTagText tag]
      openTags := if s.openTags.getLast?.any (·.name = tag) then s.openTags.dropLast else s.openTags }
  | .data d => s.appendVisible rounds d d
  | .entityref name =>
    let source := '&' :: (name ++ [';'])
    s.appendVisible rounds source (unescape E source)
  | .charref name =>
    let source := '&' :: '#' :: (name ++ [';'])
    s.appendVisible rounds source (unescape E source)

end TelegramHtmlSplitter

def Token.visible (E : Entities) : Token → List Char
  | .starttag .. | .startendtag .. | .endtag .. => []
  | .data d => d
  | t => unescape E t.source

/-- `_visible_html_text` of the text of the tokens. -/
def visibleText (E : Entities) (tokens : List Token) : List Char := tokens.flatMap (Token.visible E)

inductive SplitError
  | value (message : String)
  | unfinished
  deriving DecidableEq

/-- `split_telegram_html` of the text that the parser reads as these tokens. -/
def splitTelegramHtml (E : Entities) (rounds : Nat) (tokens : List Token) (limit : Int) :
    Except SplitError (List (List Char)) := do
  require (0 < limit) (.value "Telegram text limit must be positive")
  if (units (visibleText E tokens) : Int) ≤ limit then return [Token.text tokens]
  else
    match tokens.foldlM (TelegramHtmlSplitter.handle E rounds) ⟨limit, 0, [], [], []⟩ with
    | some s => return s.flush.chunks
    | none => throw .unfinished

/-! ### Tokens as marked-up text -/

/-- What is seen of a text: a character that stands for itself, or a reference that stands for something else. -/
inductive Visible
  | char (c : Char)
  | reference (source visible : List Char)
  deriving DecidableEq

namespace Visible

def chars : Visible → List Char
  | char c => [c]
  | reference _ visible => visible

end Visible

def marks (source visible : List Char) : List (Markup OpenTag (List Char) Visible) :=
  if source = visible then visible.map fun c => holds (.char c)
  else if visible = [] then []
  else [holds (.reference source visible)]

def Token.markup (E : Entities) : Token → List (Markup OpenTag (List Char) Visible)
  | .starttag tag source => [opens ⟨tag, startTagText tag source⟩]
  | .startendtag .. => []
  | .endtag tag _ => [closes tag]
  | t => marks t.source (t.visible E)

def markup (E : Entities) (tokens : List Token) : List (Markup OpenTag (List Char) Visible) :=
  tokens.flatMap (Token.markup E)

/-- Every tag is closed, in the order of nesting. -/
def WellNested (E : Entities) (tokens : List Token) : Prop := Nested OpenTag.name (markup E tokens)

/-- What a text shows, piece by piece, with the tags around each piece. -/
def shown (E : Entities) (tokens : List Token) : List (Visible × List OpenTag) := contents [] (markup E tokens)

variable {E : Entities} {tokens more : List Token} {t : Token} {stack : List OpenTag} {source visible : List Char}

@[simp] theorem Token.text_append : Token.text (tokens ++ more) = Token.text tokens ++ Token.text more :=
  List.flatMap_append

@[simp] theorem markup_append : markup E (tokens ++ more) = markup E tokens ++ markup E more := List.flatMap_append

@[simp] theorem visibleText_append : visibleText E (tokens ++ more) = visibleText E tokens ++ visibleText E more :=
  List.flatMap_append

@[simp] theorem markup_nil : markup E [] = [] := rfl

@[simp] theorem markup_cons : markup E (t :: tokens) = t.markup E ++ markup E tokens := rfl

@[simp] theorem visibleText_cons : visibleText E (t :: tokens) = t.visible E ++ visibleText E tokens := rfl

theorem contents_marks : (contents stack (marks source visible)).flatMap (·.1.chars) = visible ∧
    nest OpenTag.name stack (marks source visible) = some stack := by
  have plain : ∀ l : List Char, (contents stack (l.map fun c => holds (Visible.char c) :
      List (Markup OpenTag (List Char) Visible))).flatMap (·.1.chars) = l ∧
      nest OpenTag.name stack (l.map fun c => holds (Visible.char c)) = some stack := by
    intro l
    induction l with
    | nil => simp
    | cons c l ih => simpa [Visible.chars] using ih
  unfold marks
  split
  · exact plain visible
  · split
    · next empty => simp [empty]
    · simp [Visible.chars]

theorem flatMap_contents : (contents stack (markup E tokens)).flatMap (·.1.chars) = visibleText E tokens := by
  induction tokens generalizing stack with
  | nil => rfl
  | cons t tokens ih =>
    have text : ∀ s v, t.markup E = marks s v → t.visible E = v →
        (contents stack (markup E (t :: tokens))).flatMap (·.1.chars) = visibleText E (t :: tokens) := by
      intro s v hm hv
      have moves : nest OpenTag.name stack (marks s v) = some stack := contents_marks.2
      have seen : (contents stack (marks s v)).flatMap (·.1.chars) = v := contents_marks.1
      rw [markup_cons, hm, contents_append moves, List.flatMap_append, seen, ih, visibleText_cons, hv]
    cases t with
    | starttag tag source => simpa [Token.markup, Token.visible] using ih
    | startendtag tag source => simpa [Token.markup, Token.visible] using ih
    | endtag tag source => simpa [Token.markup, Token.visible] using ih
    | data d => exact text _ _ rfl rfl
    | entityref name => exact text _ _ rfl rfl
    | charref name => exact text _ _ rfl rfl

theorem contents_eq_nil (h : visibleText E tokens = []) : contents stack (markup E tokens) = [] := by
  induction tokens generalizing stack with
  | nil => rfl
  | cons t tokens ih =>
    rw [visibleText_cons, List.append_eq_nil_iff] at h
    have none_ : ∀ s, marks s [] = [] := by
      intro s
      simp [marks]
    have text : t.markup E = marks t.source (t.visible E) → contents stack (markup E (t :: tokens)) = [] := by
      intro hm
      rw [markup_cons, hm, h.1, none_]
      exact ih h.2
    cases t with
    | starttag tag source => exact ih h.2
    | startendtag tag source => exact ih h.2
    | endtag tag source => exact ih h.2
    | data d => exact text rfl
    | entityref name => exact text rfl
    | charref name => exact text rfl

/-! ### Prefixes -/

theorem takeUtf16Prefix_spec {limit : Int} {used : Nat} {l : List Char} (room : (used : Int) ≤ limit) :
    let taken := takeUtf16Prefix limit used l
    taken.1 ++ taken.2 = l ∧ (used + units taken.1 : Int) ≤ limit ∧
      ∀ c rest, taken.2 = c :: rest → limit < used + units taken.1 + utf16Units c := by
  induction l generalizing used with
  | nil => simpa [takeUtf16Prefix] using room
  | cons c l ih =>
    by_cases full : limit < used + utf16Units c
    · simp only [takeUtf16Prefix, full, ite_true]
      refine ⟨rfl, by simpa using room, ?_⟩
      intro d rest h
      obtain ⟨rfl, -⟩ := List.cons.inj h
      simpa using full
    · have room : ((used + utf16Units c : Nat) : Int) ≤ limit := by push_cast; omega
      obtain ⟨whole, fits, next⟩ := ih room
      simp only [takeUtf16Prefix, full, ite_false]
      refine ⟨by rw [List.cons_append, whole], ?_, ?_⟩
      · rw [units_cons]
        push_cast at fits ⊢
        omega
      · intro d rest h
        have := next d rest h
        rw [units_cons]
        push_cast at this ⊢
        omega

/-! ### The state of the splitter -/

namespace TelegramHtmlSplitter

/-- The splitter after a part of the stream: its chunks are the texts of `pieces` and its parts that of `current`. -/
structure Holds (E : Entities) (limit : Int) (read : List (Markup OpenTag (List Char) Visible))
    (pieces : List (List Token)) (current : List Token) (s : TelegramHtmlSplitter) : Prop where
  bound : s.limit = limit
  chunks : s.chunks = pieces.map Token.text
  parts : s.parts.flatten = Token.text current
  opened : nest OpenTag.name [] read = some s.openTags.reverse
  nested : nest OpenTag.name [] (markup E current) = some s.openTags.reverse
  sourced : ∀ tag ∈ s.openTags, tag.source ≠ []
  length : s.visibleLength = units (visibleText E current)
  fits : (s.visibleLength : Int) ≤ limit
  whole : ∀ p ∈ pieces, WellNested E p ∧ visibleText E p ≠ [] ∧ (units (visibleText E p) : Int) ≤ limit
  same : pieces.flatMap (shown E) ++ shown E current = contents [] read

/-- Some pieces and parts are those of the splitter. -/
def Reads (E : Entities) (limit : Int) (read : List (Markup OpenTag (List Char) Visible)) (s : TelegramHtmlSplitter) :
    Prop :=
  ∃ pieces current, Holds E limit read pieces current s

variable {s : TelegramHtmlSplitter} {limit : Int} {read : List (Markup OpenTag (List Char) Visible)}
  {pieces : List (List Token)} {current : List Token} {tags : List OpenTag}

theorem Holds.grow (h : Holds E limit read pieces current s)
    (moves : nest OpenTag.name s.openTags.reverse (t.markup E) = some tags.reverse)
    (sourced : ∀ tag ∈ tags, tag.source ≠ [])
    (room : (s.visibleLength + units (t.visible E) : Int) ≤ limit) :
    Holds E limit (read ++ t.markup E) pieces (current ++ [t])
      { s with
        parts := s.parts ++ [t.source], visibleLength := s.visibleLength + units (t.visible E), openTags := tags } where
  bound := h.bound
  chunks := h.chunks
  parts := by simp [h.parts, Token.text]
  opened := by rw [nest_append, h.opened]; exact moves
  nested := by
    rw [markup_append, nest_append, h.nested]
    simpa using moves
  sourced := sourced
  length := by simp [h.length, visibleText]
  fits := by simpa using room
  whole := h.whole
  same := by
    have seen : shown E (current ++ [t]) = shown E current ++ contents s.openTags.reverse (t.markup E) := by
      rw [shown, markup_append, contents_append h.nested]
      simp [shown]
    rw [seen, contents_append h.opened, ← h.same, List.append_assoc]

def endTags (tags : List OpenTag) : List Token := tags.reverse.map fun tag => .endtag tag.name (endTagText tag.name)

/-- The start tags that open the next one. -/
def startTags (tags : List OpenTag) : List Token := tags.map fun tag => .starttag tag.name tag.source

theorem text_endTags : Token.text (endTags tags) = (tags.reverse.map fun tag => endTagText tag.name).flatten := by
  rw [Token.text, endTags, List.flatMap_def, List.map_map]
  rfl

theorem text_startTags : Token.text (startTags tags) = (tags.map (·.source)).flatten := by
  rw [Token.text, startTags, List.flatMap_def, List.map_map]
  rfl

theorem markup_endTags : markup E (endTags tags) = closers OpenTag.name tags.reverse := by
  simp only [markup, endTags, closers, List.flatMap_map, Token.markup]
  exact List.flatMap_pure_eq_map _ _

theorem markup_startTags (sourced : ∀ tag ∈ tags, tag.source ≠ []) : markup E (startTags tags) = openers tags.reverse := by
  have whole : ∀ tag ∈ tags, Token.markup E (.starttag tag.name tag.source) = [opens tag] := by
    intro tag mem
    simp [Token.markup, startTagText, sourced tag mem]
  simp only [markup, startTags, openers, List.flatMap_map, List.map_reverse, List.reverse_reverse]
  rw [List.flatMap_congr whole]
  exact List.flatMap_pure_eq_map _ _

@[simp] theorem visibleText_endTags : visibleText E (endTags tags) = [] := by
  simp [visibleText, endTags, Token.visible]

@[simp] theorem visibleText_startTags : visibleText E (startTags tags) = [] := by
  simp [visibleText, startTags, Token.visible]

theorem Reads.flush (h : Reads E limit read s) (room : 0 ≤ limit) : Reads E limit read s.flush ∧ s.flush.visibleLength = 0 := by
  obtain ⟨pieces, current, h⟩ := h
  unfold TelegramHtmlSplitter.flush
  by_cases empty : s.visibleLength = 0
  · rw [if_pos empty]
    exact ⟨⟨pieces, current, h⟩, empty⟩
  · rw [if_neg empty]
    refine ⟨⟨pieces ++ [current ++ endTags s.openTags], startTags s.openTags, ?_⟩, rfl⟩
    have closed : markup E (current ++ endTags s.openTags) = markup E current ++ closers OpenTag.name s.openTags.reverse := by
      rw [markup_append, markup_endTags]
    have seen : shown E (current ++ endTags s.openTags) = shown E current := by
      rw [shown, closed, contents_before_cut h.nested]
      rfl
    have opened : markup E (startTags s.openTags) = openers s.openTags.reverse ++ [] := by
      rw [markup_startTags h.sourced, List.append_nil]
    exact {
      bound := h.bound
      chunks := by simp [h.chunks, h.parts, text_endTags]
      parts := text_startTags.symm
      opened := h.opened
      nested := by rw [opened, nest_after_cut, nest_nil]
      sourced := h.sourced
      length := by simp
      fits := by simpa using room
      whole := by
        intro p mem
        rcases List.mem_append.mp mem with old | new
        · exact h.whole p old
        · obtain rfl := List.mem_singleton.mp new
          have same : visibleText E (current ++ endTags s.openTags) = visibleText E current := by simp
          rw [same]
          refine ⟨?_, ?_, ?_⟩
          · rw [WellNested, closed]
            exact nested_before_cut h.nested
          · intro none_
            rw [h.length, none_] at empty
            exact empty rfl
          · rw [← h.length]
            exact h.fits
      same := by
        have blank : shown E (startTags s.openTags) = [] := contents_eq_nil visibleText_startTags
        rw [blank, List.append_nil, List.flatMap_append, ← h.same]
        simp [seen] }

/-! ### Text -/

theorem nest_marks : nest OpenTag.name stack (marks source visible) = some stack := contents_marks.2

theorem Reads.text (h : Reads E limit read s) (plain : t.markup E = marks t.source (t.visible E))
    (room : (s.visibleLength + units (t.visible E) : Int) ≤ limit) :
    Reads E limit (read ++ t.markup E)
      { s with parts := s.parts ++ [t.source], visibleLength := s.visibleLength + units (t.visible E) } := by
  obtain ⟨pieces, current, h⟩ := h
  exact ⟨pieces, current ++ [t], h.grow (by rw [plain, nest_marks]) h.sourced room⟩

theorem markup_data (l : List Char) : Token.markup E (.data l) = l.map fun c => holds (.char c) := by
  simp [Token.markup, Token.source, Token.visible, marks]

theorem appendPrefixes_nil (rounds : Nat) (s : TelegramHtmlSplitter) : appendPrefixes rounds s [] = some s := by
  cases rounds <;> rfl

/--
The loop ends: a round takes a character, or it starts a new chunk and the next round does. Every round leaves the
splitter after the characters that it took.
-/
theorem appendPrefixes_reads (two : 2 ≤ limit) (rounds : Nat) (s : TelegramHtmlSplitter) (remainder : List Char)
    (read : List (Markup OpenTag (List Char) Visible)) (h : Reads E limit read s)
    (enough : 2 * remainder.length + (if s.visibleLength = 0 then 0 else 1) ≤ rounds) :
    ∃ s', appendPrefixes rounds s remainder = some s' ∧ Reads E limit (read ++ remainder.map fun c => holds (.char c)) s' := by
  induction rounds generalizing s remainder read with
  | zero =>
    have none_ : remainder = [] := by
      apply List.eq_nil_of_length_eq_zero
      omega
    subst none_
    exact ⟨s, appendPrefixes_nil .., by simpa using h⟩
  | succ rounds ih =>
    cases remainder with
    | nil => exact ⟨s, appendPrefixes_nil .., by simpa using h⟩
    | cons c rest =>
      have fits : (s.visibleLength : Int) ≤ limit ∧ s.limit = limit := by
        obtain ⟨_, _, holds⟩ := h
        exact ⟨holds.fits, holds.bound⟩
      obtain ⟨whole, size, next⟩ := takeUtf16Prefix_spec (l := c :: rest)
        (show ((0 : Nat) : Int) ≤ s.limit - s.visibleLength by rw [fits.2]; simpa using fits.1)
      simp only [appendPrefixes]
      generalize takeUtf16Prefix (s.limit - s.visibleLength) 0 (c :: rest) = taken at whole size next ⊢
      obtain ⟨taken, left⟩ := taken
      simp only [Nat.cast_zero, zero_add] at whole size next ⊢
      have grown : Reads E limit (read ++ taken.map fun c => holds (.char c)) (if taken = [] then s
          else { s with parts := s.parts ++ [taken], visibleLength := s.visibleLength + units taken }) := by
        by_cases none_ : taken = []
        · rw [if_pos none_, none_]
          simpa using h
        · rw [if_neg none_, ← markup_data]
          refine h.text (t := .data taken) rfl ?_
          show (s.visibleLength + units taken : Int) ≤ limit
          omega
      by_cases last : left = []
      · subst last
        rw [List.append_nil] at whole
        refine ⟨_, appendPrefixes_nil .., ?_⟩
        rw [← whole]
        simpa using grown
      · obtain ⟨flushed, fresh⟩ := grown.flush (by omega)
        rw [if_neg last]
        have lengths : taken.length + left.length = rest.length + 1 := by
          rw [← List.length_append, whole, List.length_cons]
        have less : 2 * left.length ≤ rounds := by
          rw [List.length_cons] at enough
          by_cases none_ : taken = []
          · -- no character fits, so there is something to flush
            subst none_
            have full := next c rest whole
            have := utf16Units_le c
            have some_ : s.visibleLength ≠ 0 := by
              intro zero
              simp only [units_nil, zero, fits.2] at full
              omega
            rw [if_neg some_] at enough
            simp only [List.length_nil] at lengths
            omega
          · have := List.length_pos_iff.mpr none_
            omega
        obtain ⟨s', ends, reads⟩ := ih _ left _ flushed (by rw [fresh]; simpa using less)
        refine ⟨s', ends, ?_⟩
        rw [← whole, List.map_append, ← List.append_assoc]
        exact reads

theorem appendPrefixes_mono {rounds more : Nat} {s s' : TelegramHtmlSplitter} {l : List Char} (le : rounds ≤ more)
    (h : appendPrefixes rounds s l = some s') : appendPrefixes more s l = some s' := by
  induction rounds generalizing more s l with
  | zero =>
    cases l with
    | nil => rw [appendPrefixes_nil] at h ⊢; exact h
    | cons c l => simp [appendPrefixes] at h
  | succ rounds ih =>
    cases l with
    | nil => rw [appendPrefixes_nil] at h ⊢; exact h
    | cons c l =>
      obtain ⟨more, rfl⟩ : ∃ k, more = k + 1 := ⟨more - 1, by omega⟩
      simp only [appendPrefixes] at h ⊢
      exact ih (by omega) h

theorem appendVisible_reads {rounds : Nat} (two : 2 ≤ limit) (h : Reads E limit read s)
    (plain : t.markup E = marks t.source (t.visible E)) (small : t.source = t.visible E ∨ units (t.visible E) ≤ 2)
    (enough : 2 * (t.visible E).length + 1 ≤ rounds) :
    ∃ s', s.appendVisible rounds t.source (t.visible E) = some s' ∧ Reads E limit (read ++ t.markup E) s' := by
  have bound : s.limit = limit := by
    obtain ⟨_, _, holds⟩ := h
    exact holds.bound
  unfold appendVisible
  by_cases room : (units (t.visible E) : Int) ≤ s.limit - s.visibleLength
  · rw [if_pos room]
    exact ⟨_, rfl, h.text plain (by omega)⟩
  rw [if_neg room]
  by_cases same : t.source = t.visible E
  · rw [if_neg (not_not.mpr same)]
    have moves : t.markup E = (t.visible E).map fun c => holds (.char c) := by
      rw [plain, same, marks, if_pos rfl]
    rw [moves]
    refine appendPrefixes_reads two rounds s _ read h ?_
    split
    · omega
    · exact enough
  · rw [if_pos same]
    obtain ⟨flushed, fresh⟩ := h.flush (by omega)
    have few : units (t.visible E) ≤ 2 := small.resolve_left same
    have grown := flushed.text plain (by rw [fresh]; push_cast; omega)
    rw [fresh, zero_add] at grown
    exact ⟨_, rfl, grown⟩

end TelegramHtmlSplitter

/-! ### The tokens of the parser -/

/-- `[a-zA-Z][-.a-zA-Z0-9]*` -/
def isEntityName : List Char → Bool
  | [] => false
  | c :: rest => c.isAlpha && rest.all fun d => d.isAlphanum || d == '-' || d == '.'

/-- `[0-9]+|[xX][0-9a-fA-F]+` -/
def isCharrefName : List Char → Bool
  | [] => false
  | c :: rest => if c = 'x' ∨ c = 'X' then !rest.isEmpty && rest.all isHex else (c :: rest).all Char.isDigit

/-- The references that the parser finds, when each is ended by a semicolon: to a character by its number, or to one by
a name in the table. A name that is not in the table is shown as it stands. -/
def Token.Parsed (E : Entities) : Token → Prop
  | .entityref name => isEntityName name = true ∧
      ((E.html5 (name ++ [';'])).isSome = true ∨ unescape E ('&' :: (name ++ [';'])) = '&' :: (name ++ [';']))
  | .charref name => isCharrefName name = true
  | _ => True

instance (E : Entities) : (t : Token) → Decidable (t.Parsed E)
  | .entityref _ => inferInstanceAs (Decidable (_ ∧ _))
  | .charref _ => inferInstanceAs (Decidable (_ = _))
  | .starttag .. | .startendtag .. | .endtag .. | .data _ => instDecidableTrue

instance (E : Entities) (tokens : List Token) : Decidable (WellNested E tokens) :=
  inferInstanceAs (Decidable (Nested _ _))

theorem isNameChar_of_isEntityName {name : List Char} (h : isEntityName name = true) :
    name ≠ [] ∧ ∀ c ∈ name, isNameChar c = true := by
  have alnum : ∀ c : Char, (c.isAlphanum || c == '-' || c == '.') = true → isNameChar c = true := by
    intro c hc
    by_contra bad
    simp only [isNameChar, List.contains_eq_mem, Bool.not_eq_true, Bool.not_eq_false', decide_eq_true_eq, List.mem_cons,
      List.not_mem_nil, or_false] at bad
    rcases bad with rfl | rfl | rfl | rfl | rfl | rfl | rfl | rfl <;> exact absurd hc (by decide)
  cases name with
  | nil => simp [isEntityName] at h
  | cons c rest =>
    simp only [isEntityName, Bool.and_eq_true, List.all_eq_true] at h
    refine ⟨by simp, ?_⟩
    intro d mem
    rcases List.mem_cons.mp mem with rfl | mem
    · exact alnum d (by simp [Char.isAlphanum, h.1])
    · exact alnum d (h.2 d mem)

theorem Token.Parsed.small (h : t.Parsed E) : t.source = t.visible E ∨ units (t.visible E) ≤ 2 := by
  cases t with
  | starttag tag source => exact .inr (by simp [Token.visible])
  | startendtag tag source => exact .inr (by simp [Token.visible])
  | endtag tag source => exact .inr (by simp [Token.visible])
  | data d => exact .inl rfl
  | entityref name =>
    obtain ⟨chars, known | same⟩ := h
    · obtain ⟨some_, plain⟩ := isNameChar_of_isEntityName chars
      obtain ⟨value, known⟩ := Option.isSome_iff_exists.mp known
      have short : name.length ≤ 32 := by
        have := E.names known
        simp only [List.length_append, List.length_singleton] at this
        omega
      have whole := unescape_charref (E := E) (s := name ++ [';']) (r := []) (by
        simpa using charref_named (r := []) plain some_ short)
      rw [List.append_nil, replaceCharref_named plain known, unescape_nil, List.append_nil] at whole
      have shows : Token.visible E (.entityref name) = value := whole
      rw [shows]
      exact .inr (E.values known)
    · exact .inl same.symm
  | charref name =>
    right
    cases name with
    | nil => simp [Token.Parsed, isCharrefName] at h
    | cons c rest =>
      have whole : Html.charref ('#' :: c :: rest ++ [';']) = some ('#' :: c :: rest ++ [';']) := by
        simp only [Token.Parsed, isCharrefName] at h
        split at h
        · next mark =>
          simp only [Bool.and_eq_true, List.all_eq_true, Bool.not_eq_true', List.isEmpty_eq_false_iff] at h
          exact charref_hex (r := []) mark h.2 h.1
        · rw [List.all_eq_true] at h
          exact charref_decimal (r := []) h (by simp)
      have replaced := unescape_charref (E := E) (s := '#' :: c :: rest ++ [';']) (r := []) (by simpa using whole)
      rw [List.append_nil, unescape_nil, List.append_nil] at replaced
      have shows : Token.visible E (.charref (c :: rest)) = replaceCharref E ('#' :: c :: (rest ++ [';'])) := replaced
      rw [shows]
      exact units_replaceCharref_number

namespace TelegramHtmlSplitter

variable {s : TelegramHtmlSplitter} {limit : Int} {read : List (Markup OpenTag (List Char) Visible)}

theorem startTagText_ne_nil (tag source : List Char) : startTagText tag source ≠ [] := by
  unfold startTagText
  split
  · simp
  · assumption

theorem handle_reads {rounds : Nat} {tags : List OpenTag} (two : 2 ≤ limit) (parsed : t.Parsed E)
    (h : Reads E limit read s) (moves : nest OpenTag.name [] (read ++ t.markup E) = some tags)
    (enough : 2 * (t.visible E).length + 1 ≤ rounds) :
    ∃ s', s.handle E rounds t = some s' ∧ Reads E limit (read ++ t.markup E) s' := by
  obtain ⟨pieces, current, holds⟩ := h
  rw [nest_append, holds.opened, Option.bind_some] at moves
  have room : (s.visibleLength + units [] : Int) ≤ limit := by simpa using holds.fits
  cases t with
  | starttag tag source =>
    have whole : startTagText tag (startTagText tag source) = startTagText tag source :=
      if_neg (startTagText_ne_nil tag source)
    have markup_eq : Token.markup E (.starttag tag (startTagText tag source)) = Token.markup E (.starttag tag source) := by
      simp only [Token.markup, whole]
    have sourced : ∀ o ∈ s.openTags ++ [⟨tag, startTagText tag source⟩], o.source ≠ [] := by
      intro o mem
      rcases List.mem_append.mp mem with old | new
      · exact holds.sourced o old
      · obtain rfl := List.mem_singleton.mp new
        exact startTagText_ne_nil tag source
    have grown := holds.grow (t := .starttag tag (startTagText tag source)) (by simp [Token.markup, whole]) sourced room
    rw [markup_eq] at grown
    exact ⟨_, rfl, pieces, _, grown⟩
  | startendtag tag source =>
    exact ⟨_, rfl, pieces, _, holds.grow (t := .startendtag tag (if source = [] then '<' :: (tag ++ ['/', '>']) else source))
      rfl holds.sourced room⟩
  | endtag tag source =>
    obtain ⟨o, outer, stack, rfl, -⟩ := nest_closes_some moves
    have tags_eq : s.openTags = outer.reverse ++ [o] := by
      rw [← List.reverse_reverse s.openTags, stack, List.reverse_cons]
    have sourced : ∀ o' ∈ outer.reverse, o'.source ≠ [] := by
      intro o' mem
      exact holds.sourced o' (by rw [tags_eq]; exact List.mem_append_left _ mem)
    have grown := holds.grow (t := .endtag o.name (endTagText o.name)) (by simp [stack, Token.markup]) sourced room
    have closed : s.handle E rounds (.endtag o.name source) =
        some { s with parts := s.parts ++ [endTagText o.name], openTags := outer.reverse } := by
      simp [handle, tags_eq]
    exact ⟨_, closed, pieces, _, grown⟩
  | data d => exact appendVisible_reads two ⟨pieces, current, holds⟩ rfl parsed.small enough
  | entityref name => exact appendVisible_reads two ⟨pieces, current, holds⟩ rfl parsed.small enough
  | charref name => exact appendVisible_reads two ⟨pieces, current, holds⟩ rfl parsed.small enough

theorem foldlM_reads {rounds : Nat} (two : 2 ≤ limit) (parsed : ∀ t ∈ tokens, t.Parsed E)
    (h : Reads E limit read s) (nested : nest OpenTag.name [] (read ++ markup E tokens) = some [])
    (enough : ∀ t ∈ tokens, 2 * (t.visible E).length + 1 ≤ rounds) :
    ∃ s', tokens.foldlM (handle E rounds) s = some s' ∧ Reads E limit (read ++ markup E tokens) s' := by
  induction tokens generalizing s read with
  | nil => exact ⟨s, rfl, by simpa using h⟩
  | cons t tokens ih =>
    rw [markup_cons, ← List.append_assoc] at nested ⊢
    have moves : ∃ tags, nest OpenTag.name [] (read ++ t.markup E) = some tags := by
      rw [nest_append] at nested
      obtain ⟨tags, moves, -⟩ := Option.bind_eq_some_iff.mp nested
      exact ⟨tags, moves⟩
    obtain ⟨tags, moves⟩ := moves
    obtain ⟨s₁, first, reads⟩ := handle_reads two (parsed t (by simp)) h moves (enough t (by simp))
    obtain ⟨s', others, reads'⟩ := ih (fun x hx => parsed x (by simp [hx])) reads nested fun x hx => enough x (by simp [hx])
    exact ⟨s', by rw [List.foldlM_cons, first]; exact others, reads'⟩

theorem handle_mono {rounds more : Nat} {s' : TelegramHtmlSplitter} (le : rounds ≤ more)
    (h : s.handle E rounds t = some s') : s.handle E more t = some s' := by
  have text : ∀ source visible, s.appendVisible rounds source visible = some s' →
      s.appendVisible more source visible = some s' := by
    intro source visible h
    simp only [appendVisible] at h ⊢
    by_cases room : (units visible : Int) ≤ s.limit - s.visibleLength
    · rwa [if_pos room] at h ⊢
    rw [if_neg room] at h ⊢
    by_cases other : source ≠ visible
    · rwa [if_pos other] at h ⊢
    rw [if_neg other] at h ⊢
    exact appendPrefixes_mono le h
  cases t with
  | starttag tag source => exact h
  | startendtag tag source => exact h
  | endtag tag source => exact h
  | data d => exact text _ _ h
  | entityref name => exact text _ _ h
  | charref name => exact text _ _ h

theorem foldlM_mono {rounds more : Nat} {s' : TelegramHtmlSplitter} (le : rounds ≤ more)
    (h : tokens.foldlM (handle E rounds) s = some s') : tokens.foldlM (handle E more) s = some s' := by
  induction tokens generalizing s with
  | nil => exact h
  | cons t tokens ih =>
    rw [List.foldlM_cons] at h ⊢
    obtain ⟨s₁, first, others⟩ := Option.bind_eq_some_iff.mp h
    exact Option.bind_eq_some_iff.mpr ⟨s₁, handle_mono le first, ih others⟩

end TelegramHtmlSplitter

theorem length_visible_le (mem : t ∈ tokens) : (t.visible E).length ≤ (visibleText E tokens).length := by
  obtain ⟨before, after, rfl⟩ := List.append_of_mem mem
  simp only [visibleText_append, visibleText_cons, List.length_append]
  omega

/-- `<b>ab&amp;😀<i>cd</i></b>`. -/
def boldAndItalic : List Token :=
  [.starttag ['b'] ['<', 'b', '>'], .data ['a', 'b'], .entityref ['a', 'm', 'p'], .data ['😀'],
    .starttag ['i'] ['<', 'i', '>'], .data ['c', 'd'], .endtag ['i'] ['<', '/', 'i', '>'], .endtag ['b'] ['<', '/', 'b', '>']]

-- the reference and the character of two units stand in chunks of their own
example : (splitTelegramHtml Html.telegram 20 boldAndItalic 2).toOption.map (·.map String.ofList) =
    some ["<b>ab</b>", "<b>&amp;</b>", "<b>😀<i></i></b>", "<b><i>cd</i></b>"] := by decide +kernel

end SalonBooking
