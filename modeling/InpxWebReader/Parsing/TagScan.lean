import InpxWebReader.Library.Scanning
import InpxWebReader.Parsing.XmlShape

/-!
# Where the tag finder looks

The scan of a text goes from character to character, past a comment, a character data section, a
processing instruction or a declaration as a whole where one opens, up to the end of the text where
it is not closed. `findNextTagRange` takes the same way in larger steps: each turn of its loop
ends further on, at a position of the scan (`turnAt_goOn`), and so does the search (`finds`). What it
finds is the range of a tag, which begins at a position of the scan where no construct opens, and so
inside none that the scan met.
-/

namespace InpxWebReader.Parsing

open Foundation Scanning

/-! ### The constructs of a text -/

inductive Construct
  | comment
  | characterData
  | processingInstruction
  | declaration
  deriving DecidableEq, Repr

def Construct.opener : Construct → Bytes
  | .comment => ascii "<!--"
  | .characterData => ascii "<![CDATA["
  | .processingInstruction => ascii "<?"
  | .declaration => ascii "<!"

/-- The construct that opens at the beginning of a text. What opens like a comment or a character
data section is no declaration. -/
def opened (text : Bytes) : Option Construct :=
  [.comment, .characterData, .processingInstruction, .declaration].find? fun construct =>
    construct.opener.isPrefixOf text

/-- The quote that is open in a text, read from outside quotes. -/
def quoteStep (quote : Option UInt8) (value : UInt8) : Option UInt8 :=
  match quote with
  | some opened => if value = opened then none else some opened
  | none => if value = asciiByte '\'' ∨ value = asciiByte '"' then some value else none

/-- A tag ends with the first `>` outside quotes. -/
def tagEnds (quote : Option UInt8) (value : UInt8) : Bool := quote = none && value = asciiByte '>'

/-- The quote and the brackets that are open in a declaration. -/
structure DeclarationScan where
  quote : Option UInt8 := none
  depth : Nat := 0
  deriving DecidableEq, Repr

def DeclarationScan.step (s : DeclarationScan) (value : UInt8) : DeclarationScan where
  quote := quoteStep s.quote value
  depth :=
    if s.quote = none ∧ value = asciiByte '[' then s.depth + 1
    else if s.quote = none ∧ value = asciiByte ']' then s.depth - 1
    else s.depth

/-- A declaration ends with the first `>` outside quotes and brackets. -/
def DeclarationScan.ends (s : DeclarationScan) (value : UInt8) : Bool :=
  tagEnds s.quote value && s.depth = 0

/-- How far a construct goes after its opener, with what closes it. -/
def Construct.bodyLength? (construct : Construct) (body : Bytes) : Option Nat :=
  match construct with
  | .comment => (find (ascii "-->") body).map (· + 3)
  | .characterData => (find (ascii "]]>") body).map (· + 3)
  | .processingInstruction => (find (ascii "?>") body).map (· + 2)
  | .declaration => (firstWhere DeclarationScan.step DeclarationScan.ends {} body).map (· + 1)

/-- Where the scan of a text goes on after a position. -/
def scanNext (text : Bytes) (position : Nat) : Nat :=
  match opened (text.drop position) with
  | none => position + 1
  | some construct =>
    match construct.bodyLength? (text.drop (position + construct.opener.length)) with
    | some length => position + construct.opener.length + length
    | none => text.length

/-! ### The end of a tag and of a declaration -/

/-- No quote is open, or one that the source has a flag for. -/
def IsQuote (quote : Option UInt8) : Prop :=
  quote = none ∨ quote = some (asciiByte '\'') ∨ quote = some (asciiByte '"')

theorem IsQuote.step {quote : Option UInt8} (h : IsQuote quote) (value : UInt8) :
    IsQuote (quoteStep quote value) := by
  rcases h with rfl | rfl | rfl
  · rw [quoteStep]
    split
    · rename_i hvalue
      rcases hvalue with rfl | rfl
      · exact .inr (.inl rfl)
      · exact .inr (.inr rfl)
    · exact .inl rfl
  · rw [quoteStep]
    split
    · exact .inl rfl
    · exact .inr (.inl rfl)
  · rw [quoteStep]
    split
    · exact .inl rfl
    · exact .inr (.inr rfl)

/-- `FindXmlTagEnd` with the flags of an open quote. -/
def findTagEnd (quote : Option UInt8) (text : Bytes) : Option Nat :=
  findXmlTagEnd (quote = some (asciiByte '\'')) (quote = some (asciiByte '"')) text

theorem findTagEnd_cons {quote : Option UInt8} (h : IsQuote quote) (value : UInt8) (text : Bytes) :
    findTagEnd quote (value :: text) =
      if tagEnds quote value then some 0 else (findTagEnd (quoteStep quote value) text).map (· + 1) := by
  have hsingle : asciiByte '\'' ≠ asciiByte '"' ∧ asciiByte '\'' ≠ asciiByte '>' := by decide
  have hdouble : asciiByte '"' ≠ asciiByte '\'' ∧ asciiByte '"' ≠ asciiByte '>' := by decide
  rw [findTagEnd, findXmlTagEnd, findTagEnd]
  rcases h with rfl | rfl | rfl
  · by_cases h₁ : value = asciiByte '\''
    · simp [h₁, tagEnds, quoteStep, hsingle]
    by_cases h₂ : value = asciiByte '"'
    · simp [h₂, tagEnds, quoteStep, hdouble]
    · simp [h₁, h₂, tagEnds, quoteStep]
  · by_cases h₁ : value = asciiByte '\''
    · simp [h₁, tagEnds, quoteStep, hsingle]
    · simp [h₁, tagEnds, quoteStep, hsingle]
  · by_cases h₂ : value = asciiByte '"'
    · simp [h₂, tagEnds, quoteStep, hdouble]
    · simp [h₂, tagEnds, quoteStep, hdouble]

theorem findTagEnd_eq {quote : Option UInt8} (h : IsQuote quote) (text : Bytes) :
    findTagEnd quote text = firstWhere quoteStep tagEnds quote text := by
  induction text generalizing quote with
  | nil => rfl
  | cons value text ih => rw [findTagEnd_cons h, firstWhere, ih (h.step value)]

/-- `FindXmlDeclarationEnd` with the flags of an open quote. -/
def findDeclarationEnd (s : DeclarationScan) (text : Bytes) : Option Nat :=
  findXmlDeclarationEnd (s.quote = some (asciiByte '\'')) (s.quote = some (asciiByte '"')) s.depth text

theorem findDeclarationEnd_cons {s : DeclarationScan} (h : IsQuote s.quote) (value : UInt8)
    (text : Bytes) :
    findDeclarationEnd s (value :: text) =
      if s.ends value then some 1 else (findDeclarationEnd (s.step value) text).map (· + 1) := by
  have hsingle : asciiByte '\'' ≠ asciiByte '"' ∧ asciiByte '\'' ≠ asciiByte '>' ∧
      asciiByte '\'' ≠ asciiByte '[' ∧ asciiByte '\'' ≠ asciiByte ']' := by decide
  have hdouble : asciiByte '"' ≠ asciiByte '\'' ∧ asciiByte '"' ≠ asciiByte '>' ∧
      asciiByte '"' ≠ asciiByte '[' ∧ asciiByte '"' ≠ asciiByte ']' := by decide
  have hopen : asciiByte '[' ≠ asciiByte '\'' ∧ asciiByte '[' ≠ asciiByte '"' ∧
      asciiByte '[' ≠ asciiByte '>' ∧ asciiByte '[' ≠ asciiByte ']' := by decide
  have hclose : asciiByte ']' ≠ asciiByte '\'' ∧ asciiByte ']' ≠ asciiByte '"' ∧
      asciiByte ']' ≠ asciiByte '>' ∧ asciiByte ']' ≠ asciiByte '[' := by decide
  obtain ⟨quote, depth⟩ := s
  rw [findDeclarationEnd, findXmlDeclarationEnd, findDeclarationEnd]
  rcases h with h | h | h
  · cases h
    by_cases h₁ : value = asciiByte '\''
    · simp [h₁, DeclarationScan.ends, DeclarationScan.step, tagEnds, quoteStep, hsingle]
    by_cases h₂ : value = asciiByte '"'
    · simp [h₂, DeclarationScan.ends, DeclarationScan.step, tagEnds, quoteStep, hdouble]
    by_cases h₃ : value = asciiByte '['
    · simp [h₃, DeclarationScan.ends, DeclarationScan.step, tagEnds, quoteStep, hopen]
    by_cases h₄ : value = asciiByte ']'
    · cases depth with
      | zero => simp [h₄, DeclarationScan.ends, DeclarationScan.step, tagEnds, quoteStep, hclose]
      | succ depth =>
        simp [h₄, DeclarationScan.ends, DeclarationScan.step, tagEnds, quoteStep, hclose]
    · simp [h₁, h₂, h₃, h₄, DeclarationScan.ends, DeclarationScan.step, tagEnds, quoteStep]
  · cases h
    by_cases h₁ : value = asciiByte '\''
    · simp [h₁, DeclarationScan.ends, DeclarationScan.step, tagEnds, quoteStep, hsingle]
    · simp [h₁, DeclarationScan.ends, DeclarationScan.step, tagEnds, quoteStep, hsingle]
  · cases h
    by_cases h₂ : value = asciiByte '"'
    · simp [h₂, DeclarationScan.ends, DeclarationScan.step, tagEnds, quoteStep, hdouble]
    · simp [h₂, DeclarationScan.ends, DeclarationScan.step, tagEnds, quoteStep, hdouble]

theorem findDeclarationEnd_eq {s : DeclarationScan} (h : IsQuote s.quote) (text : Bytes) :
    findDeclarationEnd s text =
      (firstWhere DeclarationScan.step DeclarationScan.ends s text).map (· + 1) := by
  induction text generalizing s with
  | nil => rfl
  | cons value text ih =>
    rw [findDeclarationEnd_cons h, firstWhere, ih (s := s.step value) (h.step value)]
    split
    · rfl
    · rw [Option.map_map]

/-! ### The constructs that open -/

/-- Every opener begins with `<`. -/
theorem opened_eq_none {value : UInt8} {text : Bytes} (h : value ≠ asciiByte '<') :
    opened (value :: text) = none := by
  have hfirst : ∀ construct : Construct,
      construct.opener = asciiByte '<' :: construct.opener.tail := by
    intro construct
    cases construct <;> rfl
  refine List.find?_eq_none.mpr fun construct _ hprefix => h ?_
  rw [hfirst, List.isPrefixOf_cons_cons, Bool.and_eq_true, beq_iff_eq] at hprefix
  exact hprefix.1.symm

theorem opened_eq (text : Bytes) :
    opened text =
      if (ascii "<!--").isPrefixOf text then some .comment
      else if (ascii "<![CDATA[").isPrefixOf text then some .characterData
      else if (ascii "<?").isPrefixOf text then some .processingInstruction
      else if (ascii "<!").isPrefixOf text then some .declaration
      else none := by
  rw [opened]
  simp only [List.find?_cons, List.find?_nil, Construct.opener]
  cases (ascii "<!--").isPrefixOf text with
  | true => rfl
  | false =>
    cases (ascii "<![CDATA[").isPrefixOf text with
    | true => rfl
    | false =>
      cases (ascii "<?").isPrefixOf text with
      | true => rfl
      | false => cases (ascii "<!").isPrefixOf text <;> rfl

theorem opener_length_le {text : Bytes} {construct : Construct} (h : opened text = some construct) :
    construct.opener.length ≤ text.length := by
  have hprefix : construct.opener.isPrefixOf text = true :=
    List.find?_some (p := fun construct : Construct => construct.opener.isPrefixOf text) h
  exact (List.isPrefixOf_iff_prefix.mp hprefix).length_le

theorem Construct.bodyLength?_le {construct : Construct} {body : Bytes} {length : Nat}
    (h : construct.bodyLength? body = some length) : length ≤ body.length := by
  cases construct with
  | declaration =>
    obtain ⟨n, hn, rfl⟩ := Option.map_eq_some_iff.mp h
    exact (firstWhere_eq_some_iff.mp hn).lt
  | comment =>
    obtain ⟨n, hn, rfl⟩ := Option.map_eq_some_iff.mp h
    exact find_le hn
  | characterData =>
    obtain ⟨n, hn, rfl⟩ := Option.map_eq_some_iff.mp h
    exact find_le hn
  | processingInstruction =>
    obtain ⟨n, hn, rfl⟩ := Option.map_eq_some_iff.mp h
    exact find_le hn

theorem lt_scanNext (text : Bytes) (position : Nat) : position < scanNext text position := by
  rw [scanNext]
  split
  · exact Nat.lt_succ_self _
  · rename_i construct hopened
    have hle := opener_length_le hopened
    have hpos : 0 < construct.opener.length := by cases construct <;> decide
    rw [List.length_drop] at hle
    split
    · omega
    · omega

/-! ### A turn of the loop -/

/-- What a turn of the loop does: it ends the search, or goes on at a place. -/
inductive Turn
  | stop (found : Option XmlTagRange)
  | goOn (current : Nat)

/-- The name of a tag that begins at `nameStart`. -/
def nameAt (text : Bytes) (nameStart : Nat) : Bytes := (text.drop nameStart).takeWhile isXmlNameChar

/-- A turn at a `<` that opens no construct. -/
def tagTurn (text : Bytes) (closingTag : Bool) (localName : Option Bytes) (tagStart : Nat)
    (marker : UInt8) : Turn :=
  let nameStart := tagStart + if closingTag then 2 else 1
  let nameEnd := nameStart + (nameAt text nameStart).length
  if (closingTag = false ∧ (marker = asciiByte '/' ∨ marker = asciiByte '?' ∨
      marker = asciiByte '!')) ∨ (closingTag = true ∧ marker ≠ asciiByte '/') then
    .goOn (tagStart + 1)
  else if nameAt text nameStart = [] then .goOn (tagStart + 1)
  else if localName.any fun name => ¬matchesLocalName (nameAt text nameStart) name then
    .goOn (tagStart + 1)
  else
    match findXmlTagEnd false false (text.drop nameEnd) with
    | none => .stop none
    | some tagEnd => .stop (some ⟨tagStart, nameStart, nameEnd, nameEnd + tagEnd⟩)

/-- A turn of the loop of `FindNextTagRange` from a place of the text. -/
def turnAt (text : Bytes) (closingTag : Bool) (localName : Option Bytes) (current : Nat) : Turn :=
  match find (ascii "<") (text.drop current) with
  | none => .stop none
  | some skipped =>
    match text[current + skipped + 1]? with
    | none => .stop none
    | some marker =>
      match opened (text.drop (current + skipped)) with
      | none => tagTurn text closingTag localName (current + skipped) marker
      | some construct =>
        match construct.bodyLength?
            (text.drop (current + skipped + construct.opener.length)) with
        | none => .stop none
        | some length => .goOn (current + skipped + construct.opener.length + length)

theorem shift_shift (first second : Nat) (range : XmlTagRange) :
    (range.shift second).shift first = range.shift (first + second) := by
  simp only [XmlTagRange.shift, Nat.add_assoc]

theorem map_shift (text : Bytes) (closingTag : Bool) (localName : Option Bytes)
    (fuel current moved : Nat) :
    ((findTagFrom closingTag localName fuel ((text.drop current).drop moved)).map
        (XmlTagRange.shift moved)).map (XmlTagRange.shift current) =
      (findTagFrom closingTag localName fuel (text.drop (current + moved))).map
        (XmlTagRange.shift (current + moved)) := by
  rw [List.drop_drop, Option.map_map]
  exact congrArg (Option.map · _) (funext fun range => shift_shift current moved range)

theorem map_shift_construct (text : Bytes) (closingTag : Bool) (localName : Option Bytes)
    (fuel current skipped : Nat) (construct : Construct) {length? : Option Nat}
    (h : construct.bodyLength? (text.drop (current + skipped + construct.opener.length)) =
      length?) :
    (length?.bind fun length => (findTagFrom closingTag localName fuel
        ((text.drop current).drop (skipped + construct.opener.length + length))).map
          (XmlTagRange.shift (skipped + construct.opener.length + length))).map
        (XmlTagRange.shift current) =
      match (match construct.bodyLength?
          (text.drop (current + skipped + construct.opener.length)) with
        | none => Turn.stop none
        | some length => Turn.goOn (current + skipped + construct.opener.length + length)) with
      | .stop found => found
      | .goOn next => (findTagFrom closingTag localName fuel (text.drop next)).map
          (XmlTagRange.shift next) := by
  rw [h]
  cases length? with
  | none => rfl
  | some length =>
    have hnext : current + (skipped + construct.opener.length + length) =
        current + skipped + construct.opener.length + length := by omega
    rw [Option.bind_some, map_shift, hnext]

/-- The search takes a turn, and goes on from where the turn leads. -/
theorem findTagFrom_succ (text : Bytes) (closingTag : Bool) (localName : Option Bytes)
    (fuel current : Nat) :
    (findTagFrom closingTag localName (fuel + 1) (text.drop current)).map
        (XmlTagRange.shift current) =
      match turnAt text closingTag localName current with
      | .stop found => found
      | .goOn next => (findTagFrom closingTag localName fuel (text.drop next)).map
          (XmlTagRange.shift next) := by
  rw [findTagFrom, turnAt]
  dsimp only
  cases hfind : find (ascii "<") (text.drop current) with
  | none => rfl
  | some skipped =>
    dsimp only
    rw [List.drop_drop, List.getElem?_drop]
    cases hmarker : text[current + skipped + 1]? with
    | none => rfl
    | some marker =>
      dsimp only
      rw [opened_eq]
      split
      · rw [List.drop_drop]
        cases hend : find (ascii "-->") (text.drop (current + skipped + 4)) <;>
          exact map_shift_construct text closingTag localName fuel current skipped .comment
            (congrArg (Option.map (· + 3)) hend)
      split
      · rw [List.drop_drop]
        cases hend : find (ascii "]]>") (text.drop (current + skipped + 9)) <;>
          exact map_shift_construct text closingTag localName fuel current skipped .characterData
            (congrArg (Option.map (· + 3)) hend)
      split
      · rw [List.drop_drop]
        cases hend : find (ascii "?>") (text.drop (current + skipped + 2)) <;>
          exact map_shift_construct text closingTag localName fuel current skipped .processingInstruction
            (congrArg (Option.map (· + 2)) hend)
      split
      · have hdeclaration : Construct.declaration.bodyLength? (text.drop (current + skipped + 2)) =
            findXmlDeclarationEnd false false 0 (text.drop (current + skipped + 2)) :=
          (findDeclarationEnd_eq (s := {}) (.inl rfl) _).symm
        rw [List.drop_drop]
        cases hend : findXmlDeclarationEnd false false 0 (text.drop (current + skipped + 2)) <;>
          exact map_shift_construct text closingTag localName fuel current skipped .declaration
            (hdeclaration.trans hend)
      · rw [tagTurn]
        generalize (if closingTag = true then 2 else 1) = width
        have hname : ((text.drop current).drop (skipped + width)).takeWhile isXmlNameChar =
            nameAt text (current + skipped + width) := by
          rw [List.drop_drop, nameAt, Nat.add_assoc]
        dsimp only
        rw [hname]
        split
        · exact map_shift text closingTag localName fuel current (skipped + 1)
        split
        · exact map_shift text closingTag localName fuel current (skipped + 1)
        split
        · exact map_shift text closingTag localName fuel current (skipped + 1)
        · rw [List.drop_drop, ← Nat.add_assoc, ← Nat.add_assoc]
          cases findXmlTagEnd false false (text.drop (current + skipped + width +
              (nameAt text (current + skipped + width)).length)) with
          | none => rfl
          | some tagEnd => simp only [Option.map_some, XmlTagRange.shift, Nat.add_assoc]

/-! ### Where a turn leads -/

/-- The scan comes to the next `<`. -/
theorem reached_tagStart {text : Bytes} : ∀ {rest : Bytes} {current skipped : Nat},
    text.drop current = rest → find (ascii "<") rest = some skipped →
      Reached (scanNext text) current (current + skipped) := by
  intro rest
  induction rest with
  | nil =>
    intro current skipped _ hfind
    cases hfind
  | cons value rest ih =>
    intro current skipped hrest hfind
    rw [find] at hfind
    split at hfind
    · cases hfind
      exact .start
    · rename_i hvalue
      obtain ⟨n, hn, rfl⟩ := Option.map_eq_some_iff.mp hfind
      have hne : value ≠ asciiByte '<' := by
        rintro rfl
        exact hvalue rfl
      have hnext : scanNext text current = current + 1 := by
        rw [scanNext, hrest, opened_eq_none hne]
      have hdrop : text.drop (current + 1) = rest := by
        rw [← List.drop_drop, hrest, List.drop_one, List.tail_cons]
      have hreached : Reached (scanNext text) current (current + 1) := hnext ▸ .step .start
      exact (Nat.add_right_comm current 1 n) ▸ hreached.trans (ih hdrop hn)

theorem getElem?_tagStart {text : Bytes} {current skipped : Nat}
    (h : find (ascii "<") (text.drop current) = some skipped) :
    text[current + skipped]? = some (asciiByte '<') := by
  obtain ⟨htext, hlength⟩ := find_marker h
  rw [← List.getElem?_drop, htext, List.getElem?_append_right (by omega), hlength, Nat.sub_self]
  rfl

/-- What follows the first colon of a name, or all of it. -/
def localPart (qualifiedName : Bytes) : Bytes :=
  match qualifiedName.dropWhile (· ≠ asciiByte ':') with
  | [] => qualifiedName
  | _ :: localName => localName

theorem find_singleton (value : UInt8) (text : Bytes) :
    (find [value] text).map (fun index => text.drop (index + 1)) =
      (text.dropWhile (· ≠ value)).tail? := by
  induction text with
  | nil => rfl
  | cons first text ih =>
    rw [find]
    by_cases h : first = value
    · subst h
      simp
    · have hprefix : ¬[value].isPrefixOf (first :: text) = true := by simp [Ne.symm h]
      rw [if_neg hprefix, Option.map_map, List.dropWhile_cons_of_pos (by simpa using h), ← ih]
      rfl

theorem matchesLocalName_iff {qualifiedName localName : Bytes} :
    matchesLocalName qualifiedName localName = true ↔ localPart qualifiedName = localName := by
  have hfind := find_singleton (asciiByte ':') qualifiedName
  have hcolon : ascii ":" = [asciiByte ':'] := rfl
  rw [matchesLocalName, localPart, hcolon]
  cases hindex : find [asciiByte ':'] qualifiedName with
  | none =>
    rw [hindex] at hfind
    cases hrest : qualifiedName.dropWhile (· ≠ asciiByte ':') with
    | nil => simp
    | cons first rest =>
      rw [hrest] at hfind
      cases hfind
  | some index =>
    rw [hindex] at hfind
    cases hrest : qualifiedName.dropWhile (· ≠ asciiByte ':') with
    | nil =>
      rw [hrest] at hfind
      cases hfind
    | cons first rest =>
      rw [hrest] at hfind
      have hdrop : qualifiedName.drop (index + 1) = rest := Option.some.inj hfind
      simp [hdrop]

/-- The range of a tag of a kind, of a local name where one is asked for. -/
structure IsTag (text : Bytes) (closingTag : Bool) (localName : Option Bytes)
    (range : XmlTagRange) : Prop where
  opens : text[range.start]? = some (asciiByte '<')
  kind : closingTag = true ↔ text[range.start + 1]? = some (asciiByte '/')
  start_lt : range.start < range.nameStart
  nameStart_lt : range.nameStart < range.nameEnd
  nameEnd_le : range.nameEnd ≤ range.stop
  stop_lt : range.stop < text.length
  closes : text[range.stop]? = some (asciiByte '>')
  unquoted : ((text.drop range.nameEnd).take (range.stop - range.nameEnd)).foldl quoteStep none =
    none
  named : ∀ name ∈ localName,
    localPart ((text.drop range.nameStart).take (range.nameEnd - range.nameStart)) = name

/-- A turn at a `<` goes on after it, or finds a tag there. -/
theorem tagTurn_cases {text : Bytes} (closingTag : Bool) (localName : Option Bytes)
    {tagStart : Nat} {marker : UInt8} (hstart : text[tagStart]? = some (asciiByte '<'))
    (hmarker : text[tagStart + 1]? = some marker) :
    tagTurn text closingTag localName tagStart marker = .goOn (tagStart + 1) ∨
      tagTurn text closingTag localName tagStart marker = .stop none ∨
      ∃ range, tagTurn text closingTag localName tagStart marker = .stop (some range) ∧
        range.start = tagStart ∧ IsTag text closingTag localName range := by
  rw [tagTurn]
  have hwidth : 0 < if closingTag = true then 2 else 1 := by split <;> decide
  generalize (if closingTag = true then 2 else 1) = width at hwidth
  split
  · exact .inl rfl
  rename_i hkind
  split
  · exact .inl rfl
  rename_i hname
  split
  · exact .inl rfl
  rename_i hlocal
  cases hend : findXmlTagEnd false false
      (text.drop (tagStart + width + (nameAt text (tagStart + width)).length)) with
  | none => exact .inr (.inl rfl)
  | some tagEnd =>
    refine .inr (.inr ⟨_, rfl, rfl, ?_⟩)
    have hfirst := firstWhere_eq_some_iff.mp ((findTagEnd_eq (.inl rfl) _).symm.trans hend)
    have hlt := hfirst.lt
    obtain ⟨⟨value, hvalue, hends⟩, -⟩ := hfirst
    rw [tagEnds, Bool.and_eq_true, decide_eq_true_eq, decide_eq_true_eq] at hends
    rw [List.length_drop] at hlt
    rw [List.getElem?_drop, hends.2] at hvalue
    have hlength := List.length_pos_iff.mpr hname
    refine ⟨hstart, ?_, by simpa using hwidth, by simpa using hlength, by simp, ?_, hvalue, ?_, ?_⟩
    · show closingTag = true ↔ text[tagStart + 1]? = some (asciiByte '/')
      rw [hmarker, Option.some_inj]
      cases closingTag <;> simp_all
    · show tagStart + width + (nameAt text (tagStart + width)).length + tagEnd < text.length
      omega
    · rw [Nat.add_sub_cancel_left]
      exact hends.1
    · intro name hmem
      rw [Nat.add_sub_cancel_left, nameAt,
        ← List.prefix_iff_eq_take.mp (List.takeWhile_prefix isXmlNameChar), ← matchesLocalName_iff]
      rw [Option.mem_def.mp hmem] at hlocal
      simpa [nameAt] using hlocal

/-- A turn leads from a position of the scan to one further on. -/
theorem turnAt_goOn {text : Bytes} {closingTag : Bool} {localName : Option Bytes}
    {current next : Nat} (h : turnAt text closingTag localName current = .goOn next) :
    (current < next ∧ next ≤ text.length) ∧ Reached (scanNext text) current next := by
  rw [turnAt] at h
  cases hfind : find (ascii "<") (text.drop current) with
  | none =>
    rw [hfind] at h
    cases h
  | some skipped =>
    have hreached := reached_tagStart rfl hfind
    have hlt := lt_scanNext text (current + skipped)
    suffices hnext : next = scanNext text (current + skipped) ∧ next ≤ text.length by
      rw [hnext.1]
      exact ⟨⟨by omega, hnext.1 ▸ hnext.2⟩, .step hreached⟩
    rw [hfind] at h
    dsimp only at h
    cases hmarker : text[current + skipped + 1]? with
    | none =>
      rw [hmarker] at h
      cases h
    | some marker =>
      rw [hmarker] at h
      dsimp only at h
      have hlength := (List.getElem?_eq_some_iff.mp hmarker).1
      rw [scanNext]
      cases hopened : opened (text.drop (current + skipped)) with
      | none =>
        rw [hopened] at h
        have hstart : text[current + skipped]? = some (asciiByte '<') := getElem?_tagStart hfind
        rcases tagTurn_cases closingTag localName hstart hmarker with hgo | hnone | ⟨range, hsome, -⟩
        · rw [hgo] at h
          cases h
          exact ⟨rfl, by omega⟩
        · rw [hnone] at h
          cases h
        · rw [hsome] at h
          cases h
      | some construct =>
        rw [hopened] at h
        dsimp only at h
        have hopener := opener_length_le hopened
        rw [List.length_drop] at hopener
        cases hbody : construct.bodyLength?
            (text.drop (current + skipped + construct.opener.length)) with
        | none =>
          rw [hbody] at h
          cases h
        | some length =>
          rw [hbody] at h
          have hle := Construct.bodyLength?_le hbody
          rw [List.length_drop] at hle
          cases h
          refine ⟨?_, by omega⟩
          dsimp only
          rw [hbody]

/-- A turn that finds a tag finds it at a position of the scan where no construct opens. -/
theorem turnAt_found {text : Bytes} {closingTag : Bool} {localName : Option Bytes} {current : Nat}
    {range : XmlTagRange} (h : turnAt text closingTag localName current = .stop (some range)) :
    Reached (scanNext text) current range.start ∧ opened (text.drop range.start) = none ∧
      IsTag text closingTag localName range := by
  rw [turnAt] at h
  cases hfind : find (ascii "<") (text.drop current) with
  | none =>
    rw [hfind] at h
    cases h
  | some skipped =>
    rw [hfind] at h
    dsimp only at h
    cases hmarker : text[current + skipped + 1]? with
    | none =>
      rw [hmarker] at h
      cases h
    | some marker =>
      rw [hmarker] at h
      dsimp only at h
      cases hopened : opened (text.drop (current + skipped)) with
      | none =>
        rw [hopened] at h
        rcases tagTurn_cases closingTag localName (getElem?_tagStart hfind) hmarker with
          hgo | hnone | ⟨found, hsome, hstart, htag⟩
        · rw [hgo] at h
          cases h
        · rw [hnone] at h
          cases h
        · rw [hsome] at h
          cases h
          rw [hstart]
          exact ⟨reached_tagStart rfl hfind, hopened, htag⟩
      | some construct =>
        rw [hopened] at h
        dsimp only at h
        split at h <;> cases h

/-! ### The search -/

/-- The turns of a search: each one goes on further in the text, until one ends the search or the
text is at its end. -/
inductive Finds (text : Bytes) (closingTag : Bool) (localName : Option Bytes) :
    Nat → Option XmlTagRange → Prop
  | finished {current : Nat} (hend : text.length ≤ current) :
      Finds text closingTag localName current none
  | stopped {current : Nat} {found : Option XmlTagRange} (hlt : current < text.length)
      (hturn : turnAt text closingTag localName current = .stop found) :
      Finds text closingTag localName current found
  | turned {current next : Nat} {found : Option XmlTagRange} (hlt : current < text.length)
      (hturn : turnAt text closingTag localName current = .goOn next)
      (hadvance : current < next ∧ next ≤ text.length)
      (hrest : Finds text closingTag localName next found) :
      Finds text closingTag localName current found

/-- The search with fuel for the text that is left takes its turns to the end. -/
theorem finds_of_length_le {text : Bytes} (closingTag : Bool) (localName : Option Bytes) {fuel : Nat} :
    ∀ {current : Nat}, text.length ≤ current + fuel →
      Finds text closingTag localName current
        ((findTagFrom closingTag localName fuel (text.drop current)).map
          (XmlTagRange.shift current)) := by
  induction fuel with
  | zero => exact fun h => .finished h
  | succ fuel ih =>
    intro current h
    by_cases hlt : current < text.length
    · have hturn := findTagFrom_succ text closingTag localName fuel current
      cases hresult : turnAt text closingTag localName current with
      | stop found =>
        rw [hresult] at hturn
        rw [hturn]
        exact .stopped hlt hresult
      | goOn next =>
        rw [hresult] at hturn
        rw [hturn]
        have hadvance := (turnAt_goOn hresult).1
        exact .turned hlt hresult hadvance (ih (by omega))
    · rw [List.drop_eq_nil_of_le (Nat.le_of_not_lt hlt)]
      exact .finished (Nat.le_of_not_lt hlt)

theorem finds (text : Bytes) (startOffset : Nat) (closingTag : Bool) (localName : Option Bytes) :
    Finds text closingTag localName startOffset
      (findNextTagRange text startOffset closingTag localName) :=
  finds_of_length_le closingTag localName (by rw [List.length_drop]; omega)

/-- What a search finds begins at a position of the scan where no construct opens. -/
theorem Finds.spec {text : Bytes} {closingTag : Bool} {localName : Option Bytes} {current : Nat}
    {range : XmlTagRange} (h : Finds text closingTag localName current (some range)) :
    Reached (scanNext text) current range.start ∧ opened (text.drop range.start) = none ∧
      IsTag text closingTag localName range := by
  generalize hfound : some range = found at h
  induction h with
  | finished => cases hfound
  | stopped _ hturn =>
    subst hfound
    exact turnAt_found hturn
  | turned _ hturn _ _ ih =>
    obtain ⟨hreached, hopened, htag⟩ := ih hfound
    exact ⟨(turnAt_goOn hturn).2.trans hreached, hopened, htag⟩

/-- The constructs that the scan from `startOffset` meets, with the positions where they open and
where it goes on after them. -/
def Met (text : Bytes) (startOffset opening next : Nat) : Prop :=
  Reached (scanNext text) startOffset opening ∧
    ∃ construct, opened (text.drop opening) = some construct ∧ next = scanNext text opening

/-- The search ends after turns that each go on further in the text. What it finds is the range of a
tag, from `startOffset` on and inside no construct that the scan meets. -/
theorem findNextTagRange_spec (text : Bytes) (startOffset : Nat) (closingTag : Bool)
    (localName : Option Bytes) :
    Finds text closingTag localName startOffset
        (findNextTagRange text startOffset closingTag localName) ∧
      ∀ range, findNextTagRange text startOffset closingTag localName = some range →
        startOffset ≤ range.start ∧ IsTag text closingTag localName range ∧
        ∀ opening next, Met text startOffset opening next →
          ¬(opening ≤ range.start ∧ range.start < next) := by
  refine ⟨finds text startOffset closingTag localName, fun range hrange => ?_⟩
  have hfinds := finds text startOffset closingTag localName
  rw [hrange] at hfinds
  obtain ⟨hreached, hnone, htag⟩ := hfinds.spec
  refine ⟨hreached.le (lt_scanNext text), htag, ?_⟩
  rintro opening next ⟨hmet, construct, hopened, rfl⟩ ⟨hlow, hhigh⟩
  rcases Nat.eq_or_lt_of_le hlow with rfl | hlow
  · rw [hnone] at hopened
    cases hopened
  · exact hmet.not_between (lt_scanNext text) hreached ⟨hlow, hhigh⟩

/-- A tag after a comment with a tag in it and a closing tag. -/
theorem findNextTagRange_past_comment :
    IsTag (ascii "<!-- <a> --></b><c d='>'/>") false (some (ascii "c")) ⟨16, 17, 18, 25⟩ ∧
      Met (ascii "<!-- <a> --></b><c d='>'/>") 0 0 12 :=
  ⟨((findNextTagRange_spec (ascii "<!-- <a> --></b><c d='>'/>") 0 false (some (ascii "c"))).2 _
      (by decide +kernel)).2.1,
    .start, .comment, by decide +kernel, by decide +kernel⟩

end InpxWebReader.Parsing
