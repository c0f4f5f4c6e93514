import InpxWebReader.Parsing.XmlTags

/-!
# What the guard counts

The guard follows tags and quotes and knows no comment, character data section or processing
instruction, which the tag finder passes over. A quote in one of these, inside what looks like a
tag, opens a value for the guard; until the quote comes back it sees no tag.

* `Paired`: a text in which every quote inside a tag is closed, as the guard takes tags.
* `paired_iff`: these are the texts after which the guard is outside every quote.
* `PairedQuotes.counts`: where the text before each opening tag is paired, the guard counts every
  opening tag and every quoted value in one.
* `paired_iff_counts`: a text that is not paired hides tags that follow it.
-/

namespace InpxWebReader.Parsing

open Foundation

/-! ### Tags and values -/

/-- The opening tags that repeated searches from `startOffset` find, each search starting after
the end of the tag before. -/
def openingTags (text : Bytes) : Nat → Nat → List XmlTagRange
  | 0, _ => []
  | searches + 1, startOffset =>
    match findNextTagRange text startOffset false none with
    | none => []
    | some range => range :: openingTags text searches (range.stop + 1)

/-- White space between the parts of a tag. -/
def isXmlSpace (value : UInt8) : Bool :=
  value = 0x20 || value = 0x09 || value = 0x0A || value = 0x0D

/-- The quoted values in the text of a tag: quoted strings after an equals sign. -/
def quotedValues (quote : Option UInt8) (afterEquals : Bool) : Bytes → Nat
  | [] => 0
  | value :: text =>
    match quote with
    | some opened =>
      if value = opened then quotedValues none false text else quotedValues quote false text
    | none =>
      if value = asciiByte '\'' ∨ value = asciiByte '"' then
        (if afterEquals then 1 else 0) + quotedValues (some value) false text
      else quotedValues none (value = asciiByte '=' || afterEquals && isXmlSpace value) text

/-- The quoted attribute values of a tag that was found in `text`. -/
def attributeValues (text : Bytes) (range : XmlTagRange) : Nat :=
  quotedValues none false ((text.drop range.nameEnd).take (range.stop - range.nameEnd))

/-- The texts before tags that were found one after the other from `startOffset`. -/
def textsBefore (text : Bytes) : Nat → List XmlTagRange → List Bytes
  | _, [] => []
  | startOffset, range :: ranges =>
    (text.drop startOffset).take (range.start - startOffset) ::
      textsBefore text (range.stop + 1) ranges

/-- A text, read from outside a tag or from inside one, in which every quote inside a tag is
closed. A tag is what follows a `<` up to a `>` outside quotes. -/
inductive Paired : Bool → Bytes → Prop
  | nil (insideTag : Bool) : Paired insideTag []
  | outside {value : UInt8} {text : Bytes} (h : value ≠ asciiByte '<') :
      Paired false text → Paired false (value :: text)
  | enter {text : Bytes} : Paired true text → Paired false (asciiByte '<' :: text)
  | inside {value : UInt8} {text : Bytes} (hsingle : value ≠ asciiByte '\'')
      (hdouble : value ≠ asciiByte '"') (hend : value ≠ asciiByte '>') :
      Paired true text → Paired true (value :: text)
  | leave {text : Bytes} : Paired false text → Paired true (asciiByte '>' :: text)
  | quoted {quote : UInt8} {body text : Bytes}
      (hquote : quote = asciiByte '\'' ∨ quote = asciiByte '"') (hbody : quote ∉ body) :
      Paired true text → Paired true (quote :: (body ++ quote :: text))

/-- The text before each opening tag of a fragment is paired. -/
def PairedQuotes (fragment : Bytes) : Prop :=
  ∀ before ∈ textsBefore fragment 0 (openingTags fragment fragment.length 0), Paired false before

/-- The guard, going through a fragment, counts every opening tag and every quoted value in one. -/
def CountsEveryTag (fragment : Bytes) : Prop :=
  ∀ shape searches,
    shape.nodes + (openingTags fragment searches 0).length ≤
        (addXmlFragmentShape shape fragment).nodes ∧
      shape.attributes + ((openingTags fragment searches 0).map (attributeValues fragment)).sum ≤
        (addXmlFragmentShape shape fragment).attributes

/-! ### Turns of the guard -/

theorem ShapeScan.step_outside {s : ShapeScan} {value : UInt8} (hs : s.insideTag = false)
    (h : value ≠ asciiByte '<') : s.step value = s := by
  simp [ShapeScan.step, hs, h]

theorem ShapeScan.step_enter {s : ShapeScan} (hs : s.insideTag = false) :
    s.step (asciiByte '<') = { s with insideTag := true, nodes := s.nodes + 1 } := by
  simp [ShapeScan.step, hs]

theorem ShapeScan.step_quoted {s : ShapeScan} {quote value : UInt8} (hs : s.insideTag = true)
    (hquote : s.quote = some quote) :
    s.step value = if value = quote then { s with quote := none } else s := by
  simp [ShapeScan.step, hs, hquote]

theorem ShapeScan.step_open {s : ShapeScan} {value : UInt8} (hs : s.insideTag = true)
    (hquote : s.quote = none) (h : value = asciiByte '\'' ∨ value = asciiByte '"') :
    s.step value = { s with quote := some value } := by
  simp [ShapeScan.step, hs, hquote, h]

theorem ShapeScan.step_leave {s : ShapeScan} (hs : s.insideTag = true) (hquote : s.quote = none) :
    s.step (asciiByte '>') = { s with insideTag := false } := by
  have hne : ¬(asciiByte '>' = asciiByte '\'' ∨ asciiByte '>' = asciiByte '"') ∧
      asciiByte '>' ≠ asciiByte '=' := by decide
  simp [ShapeScan.step, hs, hquote, hne.1, hne.2]

theorem ShapeScan.step_inside {s : ShapeScan} {value : UInt8} (hs : s.insideTag = true)
    (hquote : s.quote = none) (hsingle : value ≠ asciiByte '\'') (hdouble : value ≠ asciiByte '"')
    (hend : value ≠ asciiByte '>') :
    s.step value =
      { s with attributes := s.attributes + if value = asciiByte '=' then 1 else 0 } := by
  have hquotes : ¬(value = asciiByte '\'' ∨ value = asciiByte '"') := by simp [hsingle, hdouble]
  by_cases heq : value = asciiByte '='
  · simp only [ShapeScan.step, hs, hquote, if_neg hquotes, if_pos heq, Bool.true_eq_false,
      if_false]
  · simp only [ShapeScan.step, hs, hquote, if_neg hquotes, if_neg heq, if_neg hend,
      Bool.true_eq_false, if_false, Nat.add_zero]
    obtain ⟨insideTag, quote, nodes, attributes⟩ := s
    rw [show insideTag = true from hs, show quote = none from hquote]

/-- A turn takes nothing back: a tag that it enters is a node, and nothing else is. -/
theorem ShapeScan.step_counts (s : ShapeScan) (value : UInt8) :
    s.nodes + (if (s.step value).insideTag then 1 else 0) ≤
        (s.step value).nodes + (if s.insideTag then 1 else 0) ∧
      s.nodes ≤ (s.step value).nodes ∧ s.attributes ≤ (s.step value).attributes := by
  simp only [ShapeScan.step]
  split
  · split <;> simp_all
  · split
    · split <;> simp_all
    · split_ifs <;> simp_all

theorem ShapeScan.foldl_counts (text : Bytes) (s : ShapeScan) :
    s.nodes + (if (text.foldl ShapeScan.step s).insideTag then 1 else 0) ≤
        (text.foldl ShapeScan.step s).nodes + (if s.insideTag then 1 else 0) ∧
      s.nodes ≤ (text.foldl ShapeScan.step s).nodes ∧
      s.attributes ≤ (text.foldl ShapeScan.step s).attributes := by
  induction text generalizing s with
  | nil => exact ⟨le_rfl, le_rfl, le_rfl⟩
  | cons value text ih =>
    obtain ⟨hnodes, hn, ha⟩ := ih (s.step value)
    obtain ⟨hnodes', hn', ha'⟩ := s.step_counts value
    rw [List.foldl_cons]
    exact ⟨by omega, by omega, by omega⟩

/-! ### Paired texts -/

/-- Between the quotes of a string the guard stands still. -/
theorem ShapeScan.foldl_body {quote : UInt8} {body : Bytes} (hbody : quote ∉ body)
    {s : ShapeScan} (hs : s.insideTag = true) (hquote : s.quote = some quote) :
    body.foldl ShapeScan.step s = s := by
  induction body with
  | nil => rfl
  | cons value body ih =>
    rw [List.mem_cons, not_or] at hbody
    rw [List.foldl_cons, ShapeScan.step_quoted hs hquote, if_neg (Ne.symm hbody.1)]
    exact ih hbody.2

theorem Paired.quote_none {insideTag : Bool} {text : Bytes} (h : Paired insideTag text)
    {s : ShapeScan} (hs : s.insideTag = insideTag) (hquote : s.quote = none) :
    (text.foldl ShapeScan.step s).quote = none := by
  induction h generalizing s with
  | nil => exact hquote
  | outside hvalue _ ih =>
    rw [List.foldl_cons, ShapeScan.step_outside hs hvalue]
    exact ih hs hquote
  | enter _ ih =>
    rw [List.foldl_cons, ShapeScan.step_enter hs]
    exact ih rfl hquote
  | inside hsingle hdouble hend _ ih =>
    rw [List.foldl_cons, ShapeScan.step_inside hs hquote hsingle hdouble hend]
    exact ih hs hquote
  | leave _ ih =>
    rw [List.foldl_cons, ShapeScan.step_leave hs hquote]
    exact ih rfl hquote
  | @quoted quote body text hopen hbody _ ih =>
    have hstill : body.foldl ShapeScan.step { s with quote := some quote } =
        { s with quote := some quote } := ShapeScan.foldl_body hbody hs rfl
    have hclose : ({ s with quote := some quote } : ShapeScan).step quote =
        { s with quote := none } := by
      rw [ShapeScan.step_quoted (s := { s with quote := some quote }) hs rfl, if_pos rfl]
    rw [List.foldl_cons, ShapeScan.step_open hs hquote hopen, List.foldl_append, hstill,
      List.foldl_cons, hclose]
    exact ih hs rfl

/-- What is left of a text when the guard, inside a quote, comes out of all quotes again. -/
theorem exists_closed {text : Bytes} {quote : UInt8} {s : ShapeScan}
    (h : (text.foldl ShapeScan.step s).quote = none) (hs : s.insideTag = true)
    (hquote : s.quote = some quote) :
    ∃ body rest, text = body ++ quote :: rest ∧ quote ∉ body ∧
      (rest.foldl ShapeScan.step { s with quote := none }).quote = none := by
  induction text with
  | nil =>
    rw [List.foldl_nil, hquote] at h
    cases h
  | cons value text ih =>
    rw [List.foldl_cons, ShapeScan.step_quoted hs hquote] at h
    by_cases hvalue : value = quote
    · rw [if_pos hvalue] at h
      exact ⟨[], text, by rw [hvalue]; rfl, by simp, h⟩
    · rw [if_neg hvalue] at h
      obtain ⟨body, rest, htext, hbody, hrest⟩ := ih h
      refine ⟨value :: body, rest, by rw [htext]; rfl, ?_, hrest⟩
      rw [List.mem_cons, not_or]
      exact ⟨Ne.symm hvalue, hbody⟩

/-- The texts after which the guard is outside every quote are the paired ones. -/
theorem paired_of_quote_none {insideTag : Bool} : ∀ {text : Bytes} {s : ShapeScan},
    (text.foldl ShapeScan.step s).quote = none → s.insideTag = insideTag → s.quote = none →
      Paired insideTag text := by
  intro text
  induction hn : text.length using Nat.strong_induction_on generalizing text insideTag with
  | _ n ih =>
    intro s h hs hquote
    cases text with
    | nil => exact .nil _
    | cons value text =>
      rw [List.length_cons] at hn
      rw [List.foldl_cons] at h
      have hshort : text.length < n := by omega
      cases insideTag with
      | false =>
        by_cases hvalue : value = asciiByte '<'
        · subst hvalue
          rw [ShapeScan.step_enter hs] at h
          exact .enter (ih _ hshort rfl h rfl hquote)
        · rw [ShapeScan.step_outside hs hvalue] at h
          exact .outside hvalue (ih _ hshort rfl h hs hquote)
      | true =>
        by_cases hopen : value = asciiByte '\'' ∨ value = asciiByte '"'
        · rw [ShapeScan.step_open hs hquote hopen] at h
          obtain ⟨body, rest, rfl, hbody, hrest⟩ := exists_closed h hs rfl
          rw [List.length_append, List.length_cons] at hshort
          exact .quoted hopen hbody (ih rest.length (by omega) rfl hrest hs rfl)
        · rw [not_or] at hopen
          by_cases hend : value = asciiByte '>'
          · subst hend
            rw [ShapeScan.step_leave hs hquote] at h
            exact .leave (ih _ hshort rfl h rfl hquote)
          · rw [ShapeScan.step_inside hs hquote hopen.1 hopen.2 hend] at h
            exact .inside hopen.1 hopen.2 hend (ih _ hshort rfl h hs hquote)

theorem paired_iff {text : Bytes} {s : ShapeScan} (hquote : s.quote = none) :
    Paired s.insideTag text ↔ (text.foldl ShapeScan.step s).quote = none :=
  ⟨fun h => h.quote_none rfl hquote, fun h => paired_of_quote_none h rfl hquote⟩

instance (insideTag : Bool) (text : Bytes) : Decidable (Paired insideTag text) :=
  decidable_of_iff _
    (paired_iff (s := { insideTag := insideTag, nodes := 0, attributes := 0 }) rfl).symm

instance (fragment : Bytes) : Decidable (PairedQuotes fragment) :=
  inferInstanceAs (Decidable (∀ before ∈ _, Paired false before))

/-! ### What a search finds -/

/-- Where a search for an opening tag has found one: after `before`, a `<` and a name, then
`attributes` up to a `>` outside quotes, and `rest` after the tag. -/
structure OpeningTagAt (text : Bytes) (range : XmlTagRange) (before name attributes rest : Bytes) :
    Prop where
  text_eq : text = before ++ asciiByte '<' :: (name ++ (attributes ++ asciiByte '>' :: rest))
  name_char : ∀ value ∈ name, isXmlNameChar value = true
  tagEnd : findXmlTagEnd false false (attributes ++ asciiByte '>' :: rest) = some attributes.length
  start_eq : range.start = before.length
  nameStart_eq : range.nameStart = before.length + 1
  nameEnd_eq : range.nameEnd = before.length + 1 + name.length
  stop_eq : range.stop = before.length + 1 + name.length + attributes.length

theorem OpeningTagAt.shift {text : Bytes} {range : XmlTagRange} {before name attributes rest : Bytes}
    {offset : Nat} (h : OpeningTagAt (text.drop offset) range before name attributes rest) :
    OpeningTagAt text (range.shift offset) (text.take offset ++ before) name attributes rest := by
  have hlt : offset < text.length := by
    have hlength := congrArg List.length h.text_eq
    rw [List.length_drop, List.length_append, List.length_cons] at hlength
    omega
  have hbefore : (text.take offset ++ before).length = offset + before.length := by
    rw [List.length_append, List.length_take]
    omega
  refine ⟨?_, h.name_char, h.tagEnd, ?_, ?_, ?_, ?_⟩
  · rw [List.append_assoc, ← h.text_eq, List.take_append_drop]
  all_goals
    have := h.start_eq
    have := h.nameStart_eq
    have := h.nameEnd_eq
    have := h.stop_eq
    simp only [XmlTagRange.shift, hbefore]
    omega

theorem findXmlTagEnd_some : ∀ {text : Bytes} {inSingleQuotedValue inDoubleQuotedValue : Bool}
    {n : Nat}, findXmlTagEnd inSingleQuotedValue inDoubleQuotedValue text = some n →
      text = text.take n ++ asciiByte '>' :: text.drop (n + 1) ∧ (text.take n).length = n := by
  intro text
  induction text with
  | nil =>
    intro _ _ n h
    cases h
  | cons value text ih =>
    intro inSingle inDouble n h
    have hmap : ∀ {single double : Bool},
        (findXmlTagEnd single double text).map (· + 1) = some n →
          value :: text = (value :: text).take n ++ asciiByte '>' :: (value :: text).drop (n + 1) ∧
            ((value :: text).take n).length = n := by
      intro single double hmap
      obtain ⟨m, hm, rfl⟩ := Option.map_eq_some_iff.mp hmap
      obtain ⟨htext, hlength⟩ := ih hm
      rw [List.take_succ_cons, List.drop_succ_cons, List.length_cons, hlength, List.cons_append,
        ← htext]
      exact ⟨rfl, rfl⟩
    rw [findXmlTagEnd] at h
    split at h
    · exact hmap h
    split at h
    · exact hmap h
    split at h
    · rename_i hend
      injection h with h
      subst h
      rw [hend.1]
      exact ⟨rfl, rfl⟩
    · exact hmap h

theorem find_marker {value : UInt8} {text : Bytes} {n : Nat} (h : find [value] text = some n) :
    text = text.take n ++ value :: text.drop (n + 1) ∧ (text.take n).length = n := by
  induction text generalizing n with
  | nil => cases h
  | cons first text ih =>
    rw [find] at h
    split at h
    · rename_i hpre
      injection h with h
      subst h
      have hfirst : value = first := by simpa using hpre
      rw [hfirst]
      exact ⟨rfl, rfl⟩
    · obtain ⟨m, hm, rfl⟩ := Option.map_eq_some_iff.mp h
      obtain ⟨htext, hlength⟩ := ih hm
      rw [List.take_succ_cons, List.drop_succ_cons, List.length_cons, hlength, List.cons_append,
        ← htext]
      exact ⟨rfl, rfl⟩

theorem findTagFrom_some {localName : Option Bytes} {fuel : Nat} {text : Bytes}
    {range : XmlTagRange} (h : findTagFrom false localName fuel text = some range) :
    ∃ before name attributes rest, OpeningTagAt text range before name attributes rest := by
  induction fuel generalizing text range with
  | zero => cases h
  | succ fuel ih =>
    have goOn : ∀ {current : Nat},
        (findTagFrom false localName fuel (text.drop current)).map (XmlTagRange.shift current) =
          some range →
        ∃ before name attributes rest, OpeningTagAt text range before name attributes rest := by
      intro current hmap
      obtain ⟨found, hfound, rfl⟩ := Option.map_eq_some_iff.mp hmap
      obtain ⟨before, name, attributes, rest, hat⟩ := ih hfound
      exact ⟨_, _, _, _, hat.shift⟩
    rw [findTagFrom] at h
    simp only [Bool.false_eq_true, if_false] at h
    split at h
    · cases h
    rename_i tagStart hstart
    split at h
    · cases h
    -- comments, character data, processing instructions and declarations are passed over
    split at h
    · split at h
      · cases h
      · exact goOn h
    split at h
    · split at h
      · cases h
      · exact goOn h
    split at h
    · split at h
      · cases h
      · exact goOn h
    split at h
    · split at h
      · cases h
      · exact goOn h
    split at h
    · exact goOn h
    split at h
    · exact goOn h
    split at h
    · exact goOn h
    split at h
    · cases h
    rename_i tagEnd htagEnd
    injection h with h
    obtain ⟨htext, hlength⟩ := find_marker hstart
    have hname := List.takeWhile_prefix isXmlNameChar (l := text.drop (tagStart + 1))
    have hchars := List.all_eq_true.mp (List.all_takeWhile (p := isXmlNameChar)
      (l := text.drop (tagStart + 1)))
    set name := (text.drop (tagStart + 1)).takeWhile isXmlNameChar with hdef
    obtain ⟨hattributes, hlength'⟩ := findXmlTagEnd_some htagEnd
    set afterName := text.drop (tagStart + 1 + name.length) with hafterName
    have hrest : text.drop (tagStart + 1) = name ++ afterName := by
      rw [hafterName, ← List.drop_drop (i := name.length), List.prefix_iff_eq_append.mp hname]
    refine ⟨text.take tagStart, name, afterName.take tagEnd, afterName.drop (tagEnd + 1),
      ⟨?_, hchars, ?_, ?_, ?_, ?_, ?_⟩⟩
    · rw [← hattributes, ← hrest]
      exact htext
    · rw [← hattributes, hlength']
      exact htagEnd
    all_goals rw [← h, hlength]
    rw [hlength']

/-! ### Counting a tag -/

/-- The guard is inside a tag, and inside one of the quotes that the tag finder knows, or none. -/
structure ShapeScan.InTag (s : ShapeScan) : Prop where
  insideTag : s.insideTag = true
  quote : s.quote = none ∨ s.quote = some (asciiByte '\'') ∨ s.quote = some (asciiByte '"')

/-- The tag finder, looking for the end of a tag with the quotes of the guard. -/
def ShapeScan.findTagEnd (s : ShapeScan) (text : Bytes) : Option Nat :=
  findXmlTagEnd (s.quote = some (asciiByte '\'')) (s.quote = some (asciiByte '"')) text

/-- Both go on with the same quote, or the tag ends here. -/
theorem ShapeScan.InTag.step {s : ShapeScan} (hs : s.InTag) {value : UInt8} {text : Bytes} {n : Nat}
    (h : s.findTagEnd (value :: text) = some n) :
    (n = 0 ∧ s.quote = none ∧ value = asciiByte '>') ∨
      ∃ m, n = m + 1 ∧ (s.quote = none → value ≠ asciiByte '>') ∧ (s.step value).InTag ∧
        (s.step value).nodes = s.nodes ∧ (s.step value).findTagEnd text = some m := by
  have hne : asciiByte '"' ≠ asciiByte '\'' := by decide
  have hgoOn : ∀ {s' : ShapeScan}, s.step value = s' → s'.InTag → s'.nodes = s.nodes →
      (s.quote = none → value ≠ asciiByte '>') → (s'.findTagEnd text).map (· + 1) = some n →
      ∃ m, n = m + 1 ∧ (s.quote = none → value ≠ asciiByte '>') ∧ (s.step value).InTag ∧
        (s.step value).nodes = s.nodes ∧ (s.step value).findTagEnd text = some m := by
    rintro _ rfl hin hnodes hend hmap
    obtain ⟨m, hm, rfl⟩ := Option.map_eq_some_iff.mp hmap
    exact ⟨m, rfl, hend, hin, hnodes, hm⟩
  rw [ShapeScan.findTagEnd, findXmlTagEnd] at h
  rcases hs.quote with hquote | hquote | hquote
  · by_cases hopen : value = asciiByte '\'' ∨ value = asciiByte '"'
    · right
      refine hgoOn (ShapeScan.step_open hs.insideTag hquote hopen) ⟨hs.insideTag, ?_⟩ rfl ?_ ?_
      · rcases hopen with rfl | rfl
        · exact .inr (.inl rfl)
        · exact .inr (.inr rfl)
      · rcases hopen with rfl | rfl <;> exact fun _ => by decide
      · rcases hopen with rfl | rfl
        · simpa [hquote, ShapeScan.findTagEnd, hne.symm] using h
        · simpa [hquote, ShapeScan.findTagEnd, hne] using h
    · rw [not_or] at hopen
      by_cases hend : value = asciiByte '>'
      · left
        rw [if_neg (by simp [hopen.1]), if_neg (by simp [hopen.2]),
          if_pos (by simp [hquote, hend])] at h
        exact ⟨(Option.some.inj h).symm, hquote, hend⟩
      · right
        refine hgoOn (ShapeScan.step_inside hs.insideTag hquote hopen.1 hopen.2 hend)
          ⟨hs.insideTag, .inl hquote⟩ rfl (fun _ => hend) ?_
        simpa [hquote, ShapeScan.findTagEnd, hopen.1, hopen.2, hend] using h
  · right
    have hstep := @ShapeScan.step_quoted s _ value hs.insideTag hquote
    have hend : s.quote = none → value ≠ asciiByte '>' := fun h => by rw [hquote] at h; cases h
    by_cases hclose : value = asciiByte '\''
    · rw [if_pos hclose] at hstep
      refine hgoOn hstep ⟨hs.insideTag, .inl rfl⟩ rfl hend ?_
      simpa [hquote, ShapeScan.findTagEnd, hclose, hne.symm] using h
    · rw [if_neg hclose] at hstep
      refine hgoOn hstep hs rfl hend ?_
      simpa [hquote, ShapeScan.findTagEnd, hclose, hne.symm] using h
  · right
    have hstep := @ShapeScan.step_quoted s _ value hs.insideTag hquote
    have hend : s.quote = none → value ≠ asciiByte '>' := fun h => by rw [hquote] at h; cases h
    by_cases hclose : value = asciiByte '"'
    · rw [if_pos hclose] at hstep
      refine hgoOn hstep ⟨hs.insideTag, .inl rfl⟩ rfl hend ?_
      simpa [hquote, ShapeScan.findTagEnd, hclose, hne] using h
    · rw [if_neg hclose] at hstep
      refine hgoOn hstep hs rfl hend ?_
      simpa [hquote, ShapeScan.findTagEnd, hclose, hne] using h

/-- A quoted value was announced by an equals sign, which the guard has counted. `afterEquals` is
one that it counted before. -/
theorem ShapeScan.InTag.quotedValues_step {s : ShapeScan} (hs : s.InTag) {value : UInt8}
    (hend : s.quote = none → value ≠ asciiByte '>') (text : Bytes) (afterEquals : Bool) :
    ∃ afterEquals' : Bool,
      quotedValues s.quote afterEquals (value :: text) + s.attributes +
          (if afterEquals' then 1 else 0) ≤
        quotedValues (s.step value).quote afterEquals' text + (s.step value).attributes +
          (if afterEquals then 1 else 0) := by
  cases hquote : s.quote with
  | some quote =>
    refine ⟨false, ?_⟩
    rw [ShapeScan.step_quoted hs.insideTag hquote, quotedValues]
    split
    · simp
    · simp [hquote]
  | none =>
    rw [quotedValues]
    by_cases hopen : value = asciiByte '\'' ∨ value = asciiByte '"'
    · refine ⟨false, ?_⟩
      rw [ShapeScan.step_open hs.insideTag hquote hopen, if_pos hopen]
      dsimp only
      split
      · simp
        omega
      · simp
    · refine ⟨value = asciiByte '=' || afterEquals && isXmlSpace value, ?_⟩
      rw [if_neg hopen]
      rw [not_or] at hopen
      rw [ShapeScan.step_inside hs.insideTag hquote hopen.1 hopen.2 (hend hquote)]
      by_cases heq : value = asciiByte '='
      · simp [heq, hquote]
        omega
      · cases afterEquals <;> cases isXmlSpace value <;> simp [heq, hquote]

/-- Through the attributes of a tag the guard stays inside it, ends outside every quote, and adds
an attribute for every quoted value. -/
theorem ShapeScan.InTag.attributes {attributes rest : Bytes} {s : ShapeScan} (hs : s.InTag)
    (h : s.findTagEnd (attributes ++ asciiByte '>' :: rest) = some attributes.length) :
    (attributes.foldl ShapeScan.step s).InTag ∧
      (attributes.foldl ShapeScan.step s).quote = none ∧
      (attributes.foldl ShapeScan.step s).nodes = s.nodes ∧
      ∀ afterEquals : Bool, quotedValues s.quote afterEquals attributes + s.attributes ≤
        (attributes.foldl ShapeScan.step s).attributes + if afterEquals then 1 else 0 := by
  induction attributes generalizing s with
  | nil =>
    obtain ⟨-, hquote, -⟩ | ⟨m, hm, -⟩ := hs.step h
    · refine ⟨hs, hquote, rfl, fun afterEquals => ?_⟩
      rw [quotedValues, Nat.zero_add]
      exact Nat.le_add_right _ _
    · cases hm
  | cons value attributes ih =>
    obtain ⟨hzero, -⟩ | ⟨m, hm, hend, hin, hnodes, hfound⟩ := hs.step h
    · cases hzero
    · obtain rfl := Nat.succ.inj hm
      obtain ⟨hin', hquote', hnodes', hvalues⟩ := ih hin hfound
      rw [List.foldl_cons]
      refine ⟨hin', hquote', hnodes'.trans hnodes, fun afterEquals => ?_⟩
      obtain ⟨afterEquals', hstep⟩ := hs.quotedValues_step hend attributes afterEquals
      have := hvalues afterEquals'
      omega

/-- Names have none of the characters that the guard looks for inside a tag. -/
theorem name_char_plain {value : UInt8} (h : isXmlNameChar value = true) :
    value ≠ asciiByte '\'' ∧ value ≠ asciiByte '"' ∧ value ≠ asciiByte '>' ∧
      value ≠ asciiByte '=' ∧ value ≠ asciiByte '<' := by
  refine ⟨?_, ?_, ?_, ?_, ?_⟩ <;> (rintro rfl; revert h; decide)

theorem ShapeScan.foldl_name {name : Bytes} (hname : ∀ value ∈ name, isXmlNameChar value = true)
    {s : ShapeScan} (hs : s.insideTag = true) (hquote : s.quote = none) :
    name.foldl ShapeScan.step s = s := by
  induction name with
  | nil => rfl
  | cons value name ih =>
    rw [List.forall_mem_cons] at hname
    obtain ⟨hsingle, hdouble, hend, heq, -⟩ := name_char_plain hname.1
    rw [List.foldl_cons, ShapeScan.step_inside hs hquote hsingle hdouble hend, if_neg heq]
    exact ih hname.2

def tagText (name attributes : Bytes) : Bytes :=
  asciiByte '<' :: (name ++ (attributes ++ [asciiByte '>']))

theorem OpeningTagAt.text_eq' {text : Bytes} {range : XmlTagRange}
    {before name attributes rest : Bytes}
    (h : OpeningTagAt text range before name attributes rest) :
    text = before ++ (tagText name attributes ++ rest) := by
  rw [h.text_eq, tagText]
  simp

/-- A tag that the guard comes to outside every quote is a node, with its quoted values. -/
theorem OpeningTagAt.foldl_tag {text : Bytes} {range : XmlTagRange}
    {before name attributes rest : Bytes}
    (h : OpeningTagAt text range before name attributes rest) {s : ShapeScan}
    (hquote : s.quote = none) :
    ∃ s', (tagText name attributes).foldl ShapeScan.step s = s' ∧ s'.insideTag = false ∧
      s'.quote = none ∧ s.nodes + 1 ≤ s'.nodes + (if s.insideTag then 1 else 0) ∧
      s.attributes + quotedValues none false attributes ≤ s'.attributes := by
  -- the guard is inside a tag after the opening sign, wherever it was before
  obtain ⟨s₁, hs₁, hinside₁, hquote₁, hnodes₁, hattributes₁⟩ : ∃ s₁ : ShapeScan,
      s.step (asciiByte '<') = s₁ ∧ s₁.insideTag = true ∧ s₁.quote = none ∧
        s.nodes + 1 ≤ s₁.nodes + (if s.insideTag then 1 else 0) ∧
        s₁.attributes = s.attributes := by
    refine ⟨_, rfl, ?_⟩
    cases hinside : s.insideTag with
    | false =>
      rw [ShapeScan.step_enter hinside]
      exact ⟨rfl, hquote, le_rfl, rfl⟩
    | true =>
      rw [ShapeScan.step_inside hinside hquote (by decide) (by decide) (by decide)]
      exact ⟨hinside, hquote, le_rfl, rfl⟩
  have hin : s₁.InTag := ⟨hinside₁, .inl hquote₁⟩
  have hend : s₁.findTagEnd (attributes ++ asciiByte '>' :: rest) = some attributes.length := by
    rw [ShapeScan.findTagEnd, hquote₁]
    exact h.tagEnd
  obtain ⟨hin₂, hquote₂, hnodes₂, hvalues⟩ := hin.attributes hend
  refine ⟨{ attributes.foldl ShapeScan.step s₁ with insideTag := false }, ?_, rfl, hquote₂, ?_, ?_⟩
  · rw [tagText, List.foldl_cons, hs₁, List.foldl_append,
      ShapeScan.foldl_name h.name_char hinside₁ hquote₁, List.foldl_append, List.foldl_cons,
      ShapeScan.step_leave hin₂.insideTag hquote₂]
    rfl
  · exact hnodes₂ ▸ hnodes₁
  · have hvalue := hvalues false
    rw [hquote₁] at hvalue
    simp only [Bool.false_eq_true, if_false] at hvalue
    dsimp only
    omega

theorem OpeningTagAt.counts {text : Bytes} {range : XmlTagRange}
    {before name attributes rest : Bytes}
    (h : OpeningTagAt text range before name attributes rest) {s : ShapeScan}
    (hs : s.insideTag = false) (hquote : s.quote = none) (hbefore : Paired false before) :
    ∃ s' : ShapeScan, text.foldl ShapeScan.step s = rest.foldl ShapeScan.step s' ∧
      s'.insideTag = false ∧ s'.quote = none ∧ s.nodes + 1 ≤ s'.nodes ∧
      s.attributes + quotedValues none false attributes ≤ s'.attributes := by
  obtain ⟨hnodes, -, hattributes⟩ := ShapeScan.foldl_counts before s
  obtain ⟨s', hs', hinside, hquote', hnodes', hattributes'⟩ :=
    h.foldl_tag (hbefore.quote_none hs hquote)
  refine ⟨s', ?_, hinside, hquote', ?_, by omega⟩
  · rw [h.text_eq', List.foldl_append, List.foldl_append, hs']
  · rw [hs] at hnodes
    simp only [Bool.false_eq_true, if_false] at hnodes
    omega

/-! ### Every search -/

theorem findNextTagRange_some {text : Bytes} {startOffset : Nat} {localName : Option Bytes}
    {range : XmlTagRange} (h : findNextTagRange text startOffset false localName = some range) :
    ∃ found before name attributes rest, range = XmlTagRange.shift startOffset found ∧
      OpeningTagAt (text.drop startOffset) found before name attributes rest := by
  obtain ⟨found, hfound, rfl⟩ := Option.map_eq_some_iff.mp h
  obtain ⟨before, name, attributes, rest, hat⟩ := findTagFrom_some hfound
  exact ⟨found, before, name, attributes, rest, rfl, hat⟩

section Parts

variable {text : Bytes} {startOffset : Nat} {range : XmlTagRange}
  {before name attributes rest : Bytes}

theorem OpeningTagAt.drop_nameEnd (h : OpeningTagAt text range before name attributes rest) :
    text.drop range.nameEnd = attributes ++ asciiByte '>' :: rest := by
  have hlength : range.nameEnd = (before ++ asciiByte '<' :: name).length := by
    rw [h.nameEnd_eq, List.length_append, List.length_cons]
    omega
  have htext : text = (before ++ asciiByte '<' :: name) ++ (attributes ++ asciiByte '>' :: rest) := by
    rw [h.text_eq]
    simp
  rw [hlength, htext, List.drop_left]

theorem OpeningTagAt.drop_stop (h : OpeningTagAt text range before name attributes rest) :
    text.drop (range.stop + 1) = rest := by
  have hstop : range.stop + 1 = range.nameEnd + (attributes.length + 1) := by
    rw [h.stop_eq, h.nameEnd_eq]
    omega
  rw [hstop, ← List.drop_drop, h.drop_nameEnd, ← List.drop_drop, List.drop_left]
  rfl

theorem OpeningTagAt.take_start (h : OpeningTagAt text range before name attributes rest) :
    text.take range.start = before := by
  rw [h.start_eq]
  conv_lhs => rw [h.text_eq]
  exact List.take_left

theorem OpeningTagAt.length_lt (h : OpeningTagAt text range before name attributes rest) :
    range.stop < text.length := by
  rw [h.text_eq, h.stop_eq]
  simp only [List.length_append, List.length_cons]
  omega

theorem OpeningTagAt.slice_eq (h : OpeningTagAt text range before name attributes rest) :
    slice text range.start range.stop = tagText name attributes := by
  have hlength : range.stop + 1 - range.start = (tagText name attributes).length := by
    rw [h.stop_eq, h.start_eq, tagText]
    simp only [List.length_cons, List.length_append, List.length_nil]
    omega
  rw [slice, hlength, h.start_eq]
  conv_lhs => rw [h.text_eq']
  rw [List.drop_left, List.take_left]

theorem OpeningTagAt.name_eq (h : OpeningTagAt text range before name attributes rest) :
    (text.drop range.nameStart).take (range.nameEnd - range.nameStart) = name := by
  have hlength : range.nameEnd - range.nameStart = name.length := by
    rw [h.nameEnd_eq, h.nameStart_eq]
    omega
  rw [hlength, h.nameStart_eq, ← List.drop_drop]
  conv_lhs => rw [h.text_eq]
  rw [List.drop_left, List.drop_one, List.tail_cons, List.take_left]

/-- The parts of a tag that was found from an offset, in the words of the whole text. -/
theorem OpeningTagAt.shifted
    (h : OpeningTagAt (text.drop startOffset) range before name attributes rest) :
    (text.drop startOffset).take ((range.shift startOffset).start - startOffset) = before ∧
      attributeValues text (range.shift startOffset) = quotedValues none false attributes ∧
      text.drop ((range.shift startOffset).stop + 1) = rest := by
  simp only [attributeValues, XmlTagRange.shift]
  refine ⟨?_, ?_, ?_⟩
  · rw [Nat.add_sub_cancel_left, h.take_start]
  · have hsub : startOffset + range.stop - (startOffset + range.nameEnd) = attributes.length := by
      rw [h.stop_eq, h.nameEnd_eq]
      omega
    rw [← List.drop_drop, h.drop_nameEnd, hsub, List.take_left]
  · rw [Nat.add_assoc, ← List.drop_drop, h.drop_stop]

end Parts

/-- The guard counts every tag that searches from `startOffset` find, when it comes there outside
a tag. -/
theorem foldl_counts_openingTags {text : Bytes} {searches startOffset : Nat}
    (hpaired : ∀ before ∈ textsBefore text startOffset (openingTags text searches startOffset),
      Paired false before)
    {s : ShapeScan} (hs : s.insideTag = false) (hquote : s.quote = none) :
    s.nodes + (openingTags text searches startOffset).length ≤
        ((text.drop startOffset).foldl ShapeScan.step s).nodes ∧
      s.attributes + ((openingTags text searches startOffset).map (attributeValues text)).sum ≤
        ((text.drop startOffset).foldl ShapeScan.step s).attributes := by
  induction searches generalizing startOffset s with
  | zero =>
    obtain ⟨-, hnodes, hattributes⟩ := ShapeScan.foldl_counts (text.drop startOffset) s
    exact ⟨hnodes, hattributes⟩
  | succ searches ih =>
    rw [openingTags] at hpaired ⊢
    cases hfind : findNextTagRange text startOffset false none with
    | none =>
      obtain ⟨-, hnodes, hattributes⟩ := ShapeScan.foldl_counts (text.drop startOffset) s
      exact ⟨hnodes, hattributes⟩
    | some range =>
      rw [hfind] at hpaired
      dsimp only at hpaired ⊢
      obtain ⟨found, before, name, attributes, rest, rfl, hat⟩ := findNextTagRange_some hfind
      obtain ⟨hbefore, hvalues, hrest⟩ := hat.shifted
      rw [textsBefore, List.forall_mem_cons, hbefore] at hpaired
      obtain ⟨s', hs', hinside, hquote', hnodes, hattributes⟩ :=
        hat.counts hs hquote hpaired.1
      obtain ⟨hn, ha⟩ := ih hpaired.2 hinside hquote'
      rw [hrest] at hn ha
      rw [hs', List.length_cons, List.map_cons, List.sum_cons, hvalues]
      exact ⟨by omega, by omega⟩

theorem textsBefore_subset {text : Bytes} {searches enough startOffset : Nat}
    (h : text.length ≤ startOffset + enough) :
    textsBefore text startOffset (openingTags text searches startOffset) ⊆
      textsBefore text startOffset (openingTags text enough startOffset) := by
  induction searches generalizing enough startOffset with
  | zero => exact List.nil_subset _
  | succ searches ih =>
    rw [openingTags]
    cases hfind : findNextTagRange text startOffset false none with
    | none => exact List.nil_subset _
    | some range =>
      obtain ⟨found, before, name, attributes, rest, rfl, hat⟩ := findNextTagRange_some hfind
      have hlt := hat.length_lt
      rw [List.length_drop] at hlt
      cases enough with
      | zero => omega
      | succ enough =>
        rw [openingTags, hfind]
        dsimp only
        rw [textsBefore, textsBefore]
        refine List.cons_subset_cons _ (ih ?_)
        simp only [XmlTagRange.shift]
        omega

/-- Where the text before each opening tag is paired, the guard undercounts nothing. -/
theorem PairedQuotes.counts {fragment : Bytes} (h : PairedQuotes fragment) :
    CountsEveryTag fragment := by
  intro shape searches
  have hpaired : ∀ before ∈ textsBefore fragment 0 (openingTags fragment searches 0),
      Paired false before :=
    fun before hbefore => h before (textsBefore_subset (by omega) hbefore)
  exact foldl_counts_openingTags hpaired
    (s := { nodes := shape.nodes, attributes := shape.attributes }) rfl rfl

/-! ### What an unpaired text hides -/

def plainTag : Bytes := ascii "<a>"

def plainTags : Nat → Bytes
  | 0 => []
  | n + 1 => plainTag ++ plainTags n

/-- The tag finder passes over `before`, and finds the tag after it. -/
def PassedOver (before : Bytes) : Prop :=
  ∀ rest, findNextTagRange (before ++ (plainTag ++ rest)) 0 false none =
    some ⟨before.length, before.length + 1, before.length + 2, before.length + 2⟩

theorem findTagFrom_plainTag (fuel : Nat) (rest : Bytes) :
    findTagFrom false none (fuel + 1) (plainTag ++ rest) = some ⟨0, 1, 2, 2⟩ := rfl

theorem openingTags_plainTags {text : Bytes} {n startOffset : Nat}
    (h : text.drop startOffset = plainTags n) (searches : Nat) :
    (openingTags text searches startOffset).length = min searches n ∧
      ∀ before ∈ textsBefore text startOffset (openingTags text searches startOffset),
        before = [] := by
  induction searches generalizing n startOffset with
  | zero => exact ⟨(Nat.zero_min n).symm, nofun⟩
  | succ searches ih =>
    cases n with
    | zero =>
      have hnone : findNextTagRange text startOffset false none = none := by
        rw [findNextTagRange, h]
        rfl
      rw [openingTags, hnone]
      exact ⟨rfl, nofun⟩
    | succ n =>
      have hsome : findNextTagRange text startOffset false none =
          some ⟨startOffset + 0, startOffset + 1, startOffset + 2, startOffset + 2⟩ := by
        rw [findNextTagRange, h]
        exact congrArg (Option.map _) (findTagFrom_plainTag _ (plainTags n))
      have hrest : text.drop (startOffset + 2 + 1) = plainTags n := by
        rw [Nat.add_assoc, ← List.drop_drop, h]
        rfl
      obtain ⟨hlength, hbefore⟩ := ih hrest
      rw [openingTags, hsome]
      dsimp only
      refine ⟨?_, ?_⟩
      · rw [List.length_cons, hlength, Nat.succ_min_succ]
      · rw [textsBefore, List.forall_mem_cons]
        refine ⟨?_, hbefore⟩
        rw [Nat.add_zero, Nat.sub_self, List.take_zero]

theorem PassedOver.openingTags {before : Bytes} (hpassed : PassedOver before) (n searches : Nat) :
    (openingTags (before ++ plainTags (n + 1)) (searches + 1) 0).length = min searches n + 1 ∧
      ∀ text ∈ textsBefore (before ++ plainTags (n + 1)) 0
        (openingTags (before ++ plainTags (n + 1)) (searches + 1) 0), text = before ∨ text = [] := by
  have hrest : (before ++ plainTags (n + 1)).drop (before.length + 2 + 1) = plainTags n := by
    rw [Nat.add_assoc, ← List.drop_drop, List.drop_left]
    rfl
  obtain ⟨hlength, hbefore⟩ := openingTags_plainTags hrest searches
  rw [Parsing.openingTags, show findNextTagRange (before ++ plainTags (n + 1)) 0 false none = _ from
    hpassed (plainTags n)]
  dsimp only
  refine ⟨by rw [List.length_cons, hlength], ?_⟩
  rw [textsBefore, List.forall_mem_cons]
  refine ⟨.inl ?_, fun text htext => .inr (hbefore text htext)⟩
  rw [List.drop_zero, Nat.sub_zero, List.take_left]

/-- A quote that the guard is inside was opened inside a tag. -/
theorem ShapeScan.foldl_quote {text : Bytes} {s : ShapeScan}
    (hs : ∀ quote, s.quote = some quote →
      s.insideTag = true ∧ (quote = asciiByte '\'' ∨ quote = asciiByte '"')) :
    ∀ quote, (text.foldl ShapeScan.step s).quote = some quote →
      (text.foldl ShapeScan.step s).insideTag = true ∧
        (quote = asciiByte '\'' ∨ quote = asciiByte '"') := by
  induction text generalizing s with
  | nil => exact hs
  | cons value text ih =>
    refine ih fun quote hquote => ?_
    rw [ShapeScan.step] at hquote ⊢
    split at hquote
    · split at hquote <;> simp_all
    · split at hquote
      · split at hquote <;> simp_all
      · split_ifs at hquote <;> simp_all

theorem ShapeScan.foldl_plainTags {quote : UInt8}
    (hquote : quote = asciiByte '\'' ∨ quote = asciiByte '"') {s : ShapeScan}
    (hs : s.insideTag = true) (hopen : s.quote = some quote) (n : Nat) :
    (plainTags n).foldl ShapeScan.step s = s := by
  induction n with
  | zero => rfl
  | succ n ih =>
    have hplain : quote ∉ plainTag := by
      rcases hquote with rfl | rfl <;> decide
    rw [plainTags, List.foldl_append, ShapeScan.foldl_body hplain hs hopen]
    exact ih

/-- The texts before a tag that keep nothing from being counted are exactly the paired ones: any
other hides all the tags after it. -/
theorem paired_iff_counts {before : Bytes} (hpassed : PassedOver before) :
    Paired false before ↔ ∀ n, CountsEveryTag (before ++ plainTags (n + 1)) := by
  constructor
  · intro h n
    refine PairedQuotes.counts fun text htext => ?_
    have hlength : (before ++ plainTags (n + 1)).length ≤
        0 + ((before ++ plainTags (n + 1)).length + 1) := by omega
    have hmem := textsBefore_subset hlength htext
    rcases (hpassed.openingTags n _).2 text hmem with rfl | rfl
    · exact h
    · exact .nil _
  · intro h
    set start : ShapeScan := { nodes := 0, attributes := 0 } with hstart
    set s := before.foldl ShapeScan.step start with hs
    by_contra hunpaired
    obtain ⟨quote, hquote⟩ : ∃ quote, s.quote = some quote := by
      rw [← Option.ne_none_iff_exists']
      exact fun hnone => hunpaired (paired_of_quote_none hnone rfl rfl)
    obtain ⟨hcount, -⟩ := h s.nodes {} (s.nodes + 1)
    rw [(hpassed.openingTags s.nodes s.nodes).1] at hcount
    have hstill : (before ++ plainTags (s.nodes + 1)).foldl ShapeScan.step start = s := by
      obtain ⟨hinside, hkind⟩ := ShapeScan.foldl_quote (s := start) nofun quote hquote
      rw [List.foldl_append, ← hs]
      exact ShapeScan.foldl_plainTags hkind hinside hquote _
    rw [addXmlFragmentShape, ← hstart, hstill] at hcount
    change 0 + (min s.nodes s.nodes + 1) ≤ s.nodes at hcount
    omega

/-! ### A document -/

/-- A document whose parsed text has more tags or more values than the limits is reported before
the document is built. -/
def RejectsExcess (text : Bytes) : Prop :=
  ∀ searches,
    maxFb2MetadataXmlNodes < (openingTags (parsedXml text) searches 0).length ∨
        maxFb2MetadataXmlAttributes <
          ((openingTags (parsedXml text) searches 0).map (attributeValues (parsedXml text))).sum →
      ∀ sourceLabel, ∃ failure, ∀ (Dom : Type) (loadBuffer : Bytes → Except Failure Dom),
        parseCatalogXml loadBuffer text sourceLabel = .error failure

theorem validateMetadataXmlShape_error {shape : MetadataXmlShape} {sourceLabel : Bytes}
    (h : maxFb2MetadataXmlNodes < shape.nodes ∨ maxFb2MetadataXmlAttributes < shape.attributes) :
    ∃ failure, validateMetadataXmlShape shape sourceLabel = .error failure := by
  rw [validateMetadataXmlShape]
  split
  · exact ⟨_, rfl⟩
  split
  · exact ⟨_, rfl⟩
  split
  · exact ⟨_, rfl⟩
  · omega

/-- The guard counts no more nodes than there are opening signs, and no more attributes than
there are equals signs. -/
theorem ShapeScan.foldl_le_count (text : Bytes) (s : ShapeScan) :
    (text.foldl ShapeScan.step s).nodes ≤ s.nodes + text.count (asciiByte '<') ∧
      (text.foldl ShapeScan.step s).attributes ≤ s.attributes + text.count (asciiByte '=') := by
  induction text generalizing s with
  | nil => exact ⟨le_rfl, le_rfl⟩
  | cons value text ih =>
    obtain ⟨hnodes, hattributes⟩ := ih (s.step value)
    have hstep : (s.step value).nodes ≤ s.nodes + (if value = asciiByte '<' then 1 else 0) ∧
        (s.step value).attributes ≤ s.attributes + (if value = asciiByte '=' then 1 else 0) := by
      simp only [ShapeScan.step]
      split
      · split <;> simp_all
      · split
        · split <;> simp_all
        · split_ifs <;> simp_all
    rw [List.foldl_cons, List.count_cons, List.count_cons]
    simp only [beq_iff_eq]
    omega

theorem foldl_closingTag {name : Bytes} (hname : ∀ value ∈ name, isXmlNameChar value = true)
    (s : ShapeScan) :
    ((ascii "</" ++ name ++ ascii ">").foldl ShapeScan.step s).nodes ≤ s.nodes + 1 ∧
      ((ascii "</" ++ name ++ ascii ">").foldl ShapeScan.step s).attributes ≤ s.attributes := by
  have hopen : name.count (asciiByte '<') = 0 :=
    List.count_eq_zero.mpr fun h => (name_char_plain (hname _ h)).2.2.2.2 rfl
  have hequals : name.count (asciiByte '=') = 0 :=
    List.count_eq_zero.mpr fun h => (name_char_plain (hname _ h)).2.2.2.1 rfl
  obtain ⟨hnodes, hattributes⟩ :=
    ShapeScan.foldl_le_count (ascii "</" ++ name ++ ascii ">") s
  rw [List.count_append, List.count_append] at hnodes hattributes
  rw [hopen, show (ascii "</").count (asciiByte '<') = 1 by decide,
    show (ascii ">").count (asciiByte '<') = 0 by decide] at hnodes
  rw [hequals, show (ascii "</").count (asciiByte '=') = 0 by decide,
    show (ascii ">").count (asciiByte '=') = 0 by decide] at hattributes
  exact ⟨hnodes, hattributes⟩

/-- The analysis counts at least what the guard counts in the text that is parsed: it goes through
the two parts of that text one after the other, and takes the closing tag for one node. -/
theorem analyzeCatalogXml_ge (text : Bytes) :
    (addXmlFragmentShape {} (parsedXml text)).nodes ≤ (analyzeCatalogXml text).nodes ∧
      (addXmlFragmentShape {} (parsedXml text)).attributes ≤
        (analyzeCatalogXml text).attributes := by
  cases hrange : findDescriptionRange text with
  | none =>
    rw [parsedXml, analyzeCatalogXml, catalogFragments, hrange]
    exact ⟨le_rfl, le_rfl⟩
  | some range =>
    obtain ⟨root, hroot, hrange'⟩ := Option.bind_eq_some_iff.mp hrange
    obtain ⟨opening, -, hrange'⟩ := Option.bind_eq_some_iff.mp hrange'
    obtain ⟨closing, -, hrange'⟩ := Option.bind_eq_some_iff.mp hrange'
    obtain rfl := Option.some.inj hrange'
    obtain ⟨found, before, name, attributes, rest, hshift, hat⟩ := findNextTagRange_some hroot
    obtain rfl : root = found := by
      rw [hshift, XmlTagRange.shift]
      simp
    rw [List.drop_zero] at hat
    rw [parsedXml, analyzeCatalogXml, catalogFragments, hrange]
    simp only [buildDescriptionXml, List.foldl_cons, List.foldl_nil]
    rw [hat.slice_eq, hat.name_eq]
    obtain ⟨⟨insideTag, quote, nodes₁, attributes₁⟩, hs₁, hinside, hquote, -, -⟩ :=
      hat.foldl_tag (s := { nodes := 0, attributes := 0 }) rfl
    obtain rfl : insideTag = false := hinside
    obtain rfl : quote = none := hquote
    simp only [addXmlFragmentShape, List.append_assoc, List.foldl_append, hs₁]
    rw [← List.foldl_append, ← List.foldl_append, ← List.append_assoc]
    exact foldl_closingTag hat.name_char _

theorem PairedQuotes.rejectsExcess {text : Bytes} (h : PairedQuotes (parsedXml text)) :
    RejectsExcess text := by
  intro searches hexcess sourceLabel
  obtain ⟨hnodes, hattributes⟩ := h.counts {} searches
  obtain ⟨hnodes', hattributes'⟩ := analyzeCatalogXml_ge text
  obtain ⟨failure, hfailure⟩ : ∃ failure,
      validateMetadataXmlShape (analyzeCatalogXml text) sourceLabel = .error failure :=
    validateMetadataXmlShape_error (by omega)
  refine ⟨failure, fun Dom loadBuffer => ?_⟩
  rw [parseCatalogXml, hfailure]
  rfl

/-- A quote in a comment hides the tags after it, and their values. -/
theorem not_countsEveryTag_quoteInComment :
    ¬CountsEveryTag (ascii "<!-- \" --><a x=\"1\"/><b y=\"2\"/>") := by
  intro h
  have := h {} 2
  revert this
  decide +kernel

/-- The guard counts every tag of a fragment, and what is parsed is within the limits, where the
text before each tag is paired; of the texts that the tag finder passes over, no others keep the
tags after them from being hidden. -/
theorem guard_counts_paired (fragment text before : Bytes) :
    (PairedQuotes fragment → CountsEveryTag fragment) ∧
      (PairedQuotes (parsedXml text) → RejectsExcess text) ∧
      (PassedOver before →
        (Paired false before ↔ ∀ n, CountsEveryTag (before ++ plainTags (n + 1)))) :=
  ⟨PairedQuotes.counts, PairedQuotes.rejectsExcess, paired_iff_counts⟩

theorem guard_counts_paired_comments :
    CountsEveryTag (ascii "<!-- \"a\" > 'b' --><a x=\"1\"/><b y=\"2\"/>") ∧
      RejectsExcess (ascii "<!-- \"a\" > 'b' --><a x=\"1\"/><b y=\"2\"/>") ∧
      ¬∀ n, CountsEveryTag (ascii "<!-- \" -->" ++ plainTags (n + 1)) := by
  obtain ⟨hcounts, hrejects, hexact⟩ := guard_counts_paired
    (ascii "<!-- \"a\" > 'b' --><a x=\"1\"/><b y=\"2\"/>")
    (ascii "<!-- \"a\" > 'b' --><a x=\"1\"/><b y=\"2\"/>") (ascii "<!-- \" -->")
  refine ⟨hcounts ?_, hrejects ?_, ?_⟩
  · decide +kernel
  · decide +kernel
  · rw [← hexact fun rest => rfl]
    decide +kernel

end InpxWebReader.Parsing
