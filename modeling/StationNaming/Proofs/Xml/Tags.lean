import StationNaming.Proofs.Xml.Escapes
import StationNaming.Xml.Namespace
/-!
# Reading tags as they are written

A start tag is written as a name and attributes in double quotes. What it says, its bindings, its
name and its attributes, is worked out from the written names and the values alone.

**What is exact.** `toOption_read` gives what a start tag says, for a document that declares no
entities and no attributes: it says something exactly if no attribute is given twice, every binding
may be made, and all prefixes are bound.
-/

namespace StationNaming.Xml

/-! ## Scanning attributes -/

/-- An attribute: its name as it is written, and its value. -/
abbrev WrittenAttribute := String × String

/-- The glyphs of an attribute with the blank in front. -/
def attributeGlyphs (a : WrittenAttribute) : List Glyph :=
  .char ' ' :: (glyphs a.1.toList ++
    .char '=' :: .char '"' :: (valueGlyphs a.2.toList ++ [.char '"']))

/-- The glyphs of attributes. -/
def attributesGlyphs (as : List WrittenAttribute) : List Glyph := as.flatMap attributeGlyphs

theorem attributesGlyphs_cons (a : WrittenAttribute) (as : List WrittenAttribute) :
    attributesGlyphs (a :: as) = attributeGlyphs a ++ attributesGlyphs as := rfl

/-- Attributes that were scanned are the written ones, with their values still escaped. -/
def ScannedAs (as : List WrittenAttribute) (raws : List RawAttribute) : Prop :=
  raws.map (fun raw => (raw.name, raw.value)) = as.map fun a => (a.1, valueGlyphs a.2.toList)

theorem endsName_space : EndsName ' ' := ⟨by decide, by decide⟩

theorem endsName_equals : EndsName '=' := ⟨by decide, by decide⟩

theorem endsName_close : EndsName '>' := ⟨by decide, by decide⟩

theorem scanAttributes_space (spaced : Bool) (cs : List Glyph) :
    scanAttributes spaced (.char ' ' :: cs) = scanAttributes true cs := by
  rw [scanAttributes] <;> simp [isSpace]

theorem isSpace_of_isNameChar {c : Char} (h : isNameChar c = true) : isSpace c = false := by
  cases hspace : isSpace c with
  | false => rfl
  | true =>
    simp only [isSpace, Bool.or_eq_true, beq_iff_eq] at hspace
    rcases hspace with ((rfl | rfl) | rfl) | rfl <;> exact absurd h (by decide)

theorem IsQToken.exists_cons {cs : List Char} (h : IsQToken cs) :
    ∃ c rest, cs = c :: rest ∧ isNameChar c = true := by
  have hfirst : ∀ {ds : List Char}, IsToken ds → ∃ c rest, ds = c :: rest ∧
    isNameChar c = true := by
    intro ds hds
    cases ds with
    | nil => exact absurd rfl hds.1
    | cons c rest => exact ⟨c, rest, rfl, hds.2 c List.mem_cons_self⟩
  rcases h with h | ⟨p, l, rfl, hp, -⟩
  · exact hfirst h
  · obtain ⟨c, rest, rfl, hc⟩ := hfirst hp
    exact ⟨c, rest ++ ':' :: l, rfl, hc⟩

/-- **Where an attribute may stand and one does**, it is scanned, and then the attributes after
it. -/
theorem scanAttributes_nameChar {c : Char} (hc : isNameChar c = true) (cs : List Glyph) :
    scanAttributes true (.char c :: cs) =
      (scanAttribute (.char c :: cs)).bind fun first =>
        (scanAttributes false first.2).map fun others =>
          ((first.1 :: others.1.1, others.1.2), others.2) := by
  have hspace := isSpace_of_isNameChar hc
  rw [scanAttributes]
  · simp only [hspace, Bool.false_eq_true, if_false, if_true]
    split
    · next flaw hscan =>
      rw [hscan]
      rfl
    · next a more hscan =>
      rw [hscan]
      simp only [Except.bind]
      cases scanAttributes false more <;> rfl
  all_goals
    rintro rfl
    exact absurd hc (by decide)

/-- The glyphs of an attribute begin with a blank and a name character. -/
theorem exists_attributeGlyphs_eq {a : WrittenAttribute} (h : IsQToken a.1.toList)
    (more : List Glyph) :
    ∃ c cs, isNameChar c = true ∧ attributeGlyphs a ++ more = .char ' ' :: .char c :: cs ∧
      glyphs a.1.toList ++ .char '=' :: .char '"' :: (valueGlyphs a.2.toList ++ [.char '"']) ++
        more =
        .char c :: cs := by
  obtain ⟨c, rest, hcons, hc⟩ := h.exists_cons
  refine ⟨c, glyphs rest ++ .char '=' :: .char '"' :: (valueGlyphs a.2.toList ++ [.char '"']) ++
    more, hc,
    ?_, ?_⟩
  · rw [attributeGlyphs, hcons]
    rfl
  · rw [hcons]
    rfl

/-- **A written attribute is scanned whole.** -/
theorem scanAttribute_glyphs {a : WrittenAttribute} (h : IsQName a.1.toList) (more : List Glyph) :
    ∃ start after, scanAttribute (glyphs a.1.toList ++
        .char '=' :: .char '"' :: (valueGlyphs a.2.toList ++ [.char '"']) ++ more) =
      .ok (⟨start, a.1, valueGlyphs a.2.toList, after⟩, more) := by
  have hquoted : scanQuoted (.char '"' :: (valueGlyphs a.2.toList ++ .char '"' :: more)) =
      .ok ((valueGlyphs a.2.toList, .char '"' :: more), more) := by
    simp [scanQuoted, scanValue_valueGlyphs]
  have hequals : ∀ cs, afterEquals (.char '=' :: .char '"' :: cs) = .ok (.char '"' :: cs) :=
    fun _ => rfl
  rw [List.append_assoc, List.cons_append, List.cons_append, List.append_assoc,
    List.singleton_append]
  simp only [scanAttribute, scanQName_of_isQName h endsName_equals, hequals, hquoted,
    String.ofList_toList]
  exact ⟨_, _, rfl⟩

/-- A written attribute whose name is none is not scanned. -/
theorem scanAttribute_of_not_isQName {a : WrittenAttribute} (htoken : IsQToken a.1.toList)
    (h : ¬ IsQName a.1.toList) (more : List Glyph) :
    ∃ flaw, scanAttribute (glyphs a.1.toList ++
        .char '=' :: .char '"' :: (valueGlyphs a.2.toList ++ [.char '"']) ++
          more) = .error flaw := by
  obtain ⟨flaw, hflaw⟩ := scanQName_of_not_isQName htoken h endsName_equals
    (.char '"' :: (valueGlyphs a.2.toList ++ [.char '"']) ++ more)
  refine ⟨flaw, ?_⟩
  rw [List.append_assoc, List.cons_append, scanAttribute, hflaw]

/-- **Written attributes are scanned one after the other**, up to the end of their tag. -/
theorem scanAttributes_glyphs {as : List WrittenAttribute} (h : ∀ a ∈ as, IsQName a.1.toList)
    {closing rest : List Glyph} {isEmpty : Bool}
    (hclose : scanAttributes false closing = .ok (([], isEmpty), rest)) :
    ∃ raws, ScannedAs as raws ∧
      scanAttributes false (attributesGlyphs as ++ closing) = .ok ((raws, isEmpty), rest) := by
  induction as with
  | nil => exact ⟨[], rfl, hclose⟩
  | cons a as ih =>
    obtain ⟨ha, has⟩ := List.forall_mem_cons.mp h
    obtain ⟨raws, hraws, hscan⟩ := ih has
    obtain ⟨start, after, hattribute⟩ := scanAttribute_glyphs ha (attributesGlyphs as ++ closing)
    refine ⟨⟨start, a.1, valueGlyphs a.2.toList, after⟩ :: raws, ?_, ?_⟩
    · rw [ScannedAs, List.map_cons, hraws, List.map_cons]
    · obtain ⟨c, cs, hc, hglyphs, heq⟩ :=
        exists_attributeGlyphs_eq ha.isQToken (attributesGlyphs as ++ closing)
      rw [heq] at hattribute
      rw [attributesGlyphs_cons, List.append_assoc, hglyphs, scanAttributes_space,
        scanAttributes_nameChar hc]
      simp only [hattribute, hscan, Except.bind, Except.map]

/-- **An attribute whose name is none stops the scan of its tag.** -/
theorem scanAttributes_of_not_isQName {as : List WrittenAttribute}
    (htoken : ∀ a ∈ as, IsQToken a.1.toList) (h : ¬ ∀ a ∈ as, IsQName a.1.toList)
    (closing : List Glyph) :
    ∃ flaw, scanAttributes false (attributesGlyphs as ++ closing) = .error flaw := by
  induction as with
  | nil => exact absurd (fun a ha => absurd ha List.not_mem_nil) h
  | cons a as ih =>
    obtain ⟨ha, has⟩ := List.forall_mem_cons.mp htoken
    obtain ⟨c, cs, hc, hglyphs, heq⟩ :=
      exists_attributeGlyphs_eq ha (attributesGlyphs as ++ closing)
    rw [attributesGlyphs_cons, List.append_assoc, hglyphs, scanAttributes_space,
      scanAttributes_nameChar hc]
    by_cases hname : IsQName a.1.toList
    · obtain ⟨start, after, hattribute⟩ :=
        scanAttribute_glyphs hname (attributesGlyphs as ++ closing)
      obtain ⟨flaw, hflaw⟩ := ih has fun hall => h (List.forall_mem_cons.mpr ⟨hname, hall⟩)
      rw [heq] at hattribute
      refine ⟨flaw, ?_⟩
      simp only [hattribute, hflaw, Except.bind, Except.map]
    · obtain ⟨flaw, hflaw⟩ := scanAttribute_of_not_isQName ha hname (attributesGlyphs as ++ closing)
      rw [heq] at hflaw
      refine ⟨flaw, ?_⟩
      simp only [hflaw, Except.bind]

/-! ## Scanning tags -/

/-- The end of a start tag: of an element that holds nothing, or of one that holds something. -/
def tagEnd (isEmpty : Bool) : List Glyph :=
  if isEmpty then [.char ' ', .char '/', .char '>'] else [.char '>']

theorem scanAttributes_tagEnd (isEmpty : Bool) (rest : List Glyph) :
    scanAttributes false (tagEnd isEmpty ++ rest) = .ok (([], isEmpty), rest) := by
  cases isEmpty with
  | false => simp [tagEnd, scanAttributes]
  | true => simp [tagEnd, scanAttributes, isSpace, endEmpty]

theorem exists_tagEnd (as : List WrittenAttribute) (isEmpty : Bool) (rest : List Glyph) :
    ∃ e more, EndsName e ∧ attributesGlyphs as ++ (tagEnd isEmpty ++ rest) = .char e :: more := by
  cases as with
  | nil =>
    cases isEmpty with
    | false => exact ⟨'>', _, endsName_close, rfl⟩
    | true => exact ⟨' ', _, endsName_space, rfl⟩
  | cons a as => exact ⟨' ', _, endsName_space, rfl⟩

/-- The glyphs of a start tag after its opening bracket. -/
def startTagGlyphs (tag : String) (as : List WrittenAttribute) (isEmpty : Bool) : List Glyph :=
  glyphs tag.toList ++ (attributesGlyphs as ++ tagEnd isEmpty)

/-- **A written start tag is scanned whole**, if all its names are names. -/
theorem scanStartTag_glyphs {tag : String} {as : List WrittenAttribute} (htag : IsQName tag.toList)
    (has : ∀ a ∈ as, IsQName a.1.toList) (isEmpty : Bool) (rest : List Glyph) :
    ∃ raws, ScannedAs as raws ∧
      scanStartTag (startTagGlyphs tag as isEmpty ++ rest) =
        .ok (.start tag raws isEmpty, rest) := by
  obtain ⟨raws, hraws, hscan⟩ := scanAttributes_glyphs has (scanAttributes_tagEnd isEmpty rest)
  obtain ⟨e, more, hend, heq⟩ := exists_tagEnd as isEmpty rest
  refine ⟨raws, hraws, ?_⟩
  rw [startTagGlyphs, List.append_assoc, List.append_assoc, scanStartTag, heq,
    scanQName_of_isQName htag hend, ← heq]
  simp only [hscan, String.ofList_toList]

/-- **A written start tag in which a name is none is not scanned.** -/
theorem scanStartTag_of_not_isQName {tag : String} {as : List WrittenAttribute}
    (htag : IsQToken tag.toList) (has : ∀ a ∈ as, IsQToken a.1.toList)
    (h : ¬ (IsQName tag.toList ∧ ∀ a ∈ as, IsQName a.1.toList)) (isEmpty : Bool)
    (rest : List Glyph) :
    ∃ flaw, scanStartTag (startTagGlyphs tag as isEmpty ++ rest) = .error flaw := by
  obtain ⟨e, more, hend, heq⟩ := exists_tagEnd as isEmpty rest
  rw [startTagGlyphs, List.append_assoc, List.append_assoc, scanStartTag, heq]
  by_cases hname : IsQName tag.toList
  · obtain ⟨flaw, hflaw⟩ := scanAttributes_of_not_isQName has (fun hall => h ⟨hname, hall⟩)
      (tagEnd isEmpty ++ rest)
    rw [scanQName_of_isQName hname hend, ← heq]
    exact ⟨flaw, by simp only [hflaw]⟩
  · obtain ⟨flaw, hflaw⟩ := scanQName_of_not_isQName htag hname hend more
    exact ⟨flaw, by rw [hflaw]⟩

theorem IsQName.exists_cons {cs : List Char} (h : IsQName cs) : ∃ c rest, cs = c :: rest ∧
    isNameStart c = true ∧ ∀ d ∈ rest, isNameChar d = true ∨ d = ':' := by
  rcases h with ⟨c, rest, rfl, hstart, hrest⟩ | ⟨p, l, rfl, ⟨c, rest, rfl, hstart, hrest⟩, hl⟩
  · exact ⟨c, rest, rfl, hstart, fun d hd => .inl (hrest d hd)⟩
  · refine ⟨c, rest ++ ':' :: l, rfl, hstart, fun d hd => ?_⟩
    rcases List.mem_append.mp hd with hd | hd
    · exact .inl (hrest d hd)
    · exact (List.mem_cons.mp hd).symm.imp_left (hl.isToken.2 d)

/-- **A written end tag is scanned whole.** -/
theorem scanEndTag_glyphs {tag : String} (h : IsQName tag.toList) (rest : List Glyph) :
    ∃ here, scanEndTag (glyphs tag.toList ++ .char '>' :: rest) = .ok (.stop tag here, rest) := by
  obtain ⟨c, cs, htag, hstart, hcs⟩ := h.exists_cons
  have hclose : closeEndTag (.char '>' :: rest) = .ok rest := rfl
  have hofList : String.ofList (c :: cs) = tag := by rw [← htag, String.ofList_toList]
  rw [htag, glyphs_cons, List.cons_append, scanEndTag]
  simp only [hstart, if_true, spanEndName_glyphs hcs endsName_close, hclose, hofList]
  exact ⟨_, rfl⟩

/-! ## What a tag says -/

theorem toOption_bind {ε α β : Type} (x : Except ε α) (f : α → Except ε β) :
    (x >>= f).toOption = x.toOption.bind fun a => (f a).toOption := by
  cases x <;> rfl

theorem eq_ok_of_toOption {ε α : Type} {x : Except ε α} {a : α} (h : x.toOption = some a) :
    x = .ok a := by
  cases x with
  | error e => cases h
  | ok b => exact congrArg Except.ok (Option.some.inj h)

/-- The bindings that the attributes of a tag make. -/
def bindingsOf (as : List WrittenAttribute) : List Binding :=
  as.filterMap fun a => (boundPrefix? a.1).map fun pfx => ⟨pfx, a.2⟩

/-- The attributes of a tag that make no binding. -/
def plainOf (as : List WrittenAttribute) : List WrittenAttribute :=
  as.filter fun a => (boundPrefix? a.1).isNone

/-- **What a start tag says**, if it says something. -/
def readTag (scope : Scope) (tag : String) (as : List WrittenAttribute) : Option StartTag :=
  let inside := (bindingsOf as).reverse ++ scope
  if (as.map (·.1)).Nodup ∧ ∀ b ∈ bindingsOf as, b.fault? = none then
    (resolveAttributes inside [] (plainOf as)).toOption.bind fun attributes =>
      (resolveElement inside tag).map fun name => ⟨inside, bindingsOf as, name, attributes⟩
  else none

theorem bindingsOf_append (as as' : List WrittenAttribute) :
    bindingsOf (as ++ as') = bindingsOf as ++ bindingsOf as' := List.filterMap_append

theorem plainOf_append (as as' : List WrittenAttribute) :
    plainOf (as ++ as') = plainOf as ++ plainOf as' := List.filter_append as as'

namespace TagReading

/-- A reading of a tag with more attributes. -/
def addAll (t : TagReading) (as : List WrittenAttribute) : TagReading where
  seen := (as.map (·.1)).reverse ++ t.seen
  scope := (bindingsOf as).reverse ++ t.scope
  bound := t.bound ++ bindingsOf as
  plain := t.plain ++ plainOf as

/-- Whether more attributes can be added. -/
def Takes (t : TagReading) (as : List WrittenAttribute) : Prop :=
  (as.map (·.1)).Nodup ∧ (∀ a ∈ as, a.1 ∉ t.seen) ∧ ∀ b ∈ bindingsOf as, b.fault? = none

instance (t : TagReading) (as : List WrittenAttribute) : Decidable (t.Takes as) :=
  inferInstanceAs (Decidable (_ ∧ _ ∧ _))

theorem addAll_cons (t : TagReading) (a : WrittenAttribute) (as : List WrittenAttribute) :
    t.addAll (a :: as) = (t.addAll [a]).addAll as := by
  have hbindings : bindingsOf (a :: as) = bindingsOf [a] ++ bindingsOf as :=
    bindingsOf_append [a] as
  simp [addAll, hbindings, ← plainOf_append]

theorem takes_cons (t : TagReading) (a : WrittenAttribute) (as : List WrittenAttribute) :
    t.Takes (a :: as) ↔ t.Takes [a] ∧ (t.addAll [a]).Takes as := by
  have hbindings : bindingsOf (a :: as) = bindingsOf [a] ++ bindingsOf as :=
    bindingsOf_append [a] as
  have hseen : (t.addAll [a]).seen = a.1 :: t.seen := rfl
  simp only [Takes, hbindings, hseen, List.map_cons, List.map_nil, List.nodup_cons, List.mem_cons,
    List.mem_append, List.mem_map]
  constructor
  · rintro ⟨⟨hnew, hnodup⟩, hunseen, hfaultless⟩
    refine ⟨⟨by simp, by simpa using hunseen a (.inl rfl), fun b hb => hfaultless b (.inl hb)⟩,
      hnodup, fun x hx => ?_, fun b hb => hfaultless b (.inr hb)⟩
    rintro (heq | hmem)
    · exact hnew ⟨x, hx, heq⟩
    · exact hunseen x (.inr hx) hmem
  · rintro ⟨⟨-, hunseen, hfaultless⟩, hnodup, hunseen', hfaultless'⟩
    refine ⟨⟨?_, hnodup⟩, ?_, fun b hb => hb.elim (hfaultless b) (hfaultless' b)⟩
    · rintro ⟨x, hx, heq⟩
      exact hunseen' x hx (.inl heq)
    · rintro x (rfl | hx) hmem
      · exact hunseen x (.inl rfl) hmem
      · exact hunseen' x hx (.inr hmem)

theorem takes_nil (t : TagReading) : t.Takes [] :=
  ⟨List.nodup_nil, List.forall_mem_nil _, List.forall_mem_nil _⟩

/-- Adding one attribute. -/
theorem toOption_add (here : List Glyph) (t : TagReading) (a : WrittenAttribute)
    (h : a.1 ∉ t.seen) :
    (t.add here a.1 a.2).toOption = if t.Takes [a] then some (t.addAll [a]) else none := by
  rw [add]
  cases hbound : boundPrefix? a.1 with
  | none =>
    have hbindings : bindingsOf [a] = [] := by simp [bindingsOf, hbound]
    rw [if_pos ⟨by simp, by simpa using h, by simp [hbindings]⟩]
    simp [addAll, hbindings, plainOf, hbound, Except.toOption]
  | some pfx =>
    have hbindings : bindingsOf [a] = [⟨pfx, a.2⟩] := by simp [bindingsOf, hbound]
    have hplain : plainOf [a] = [] := by simp [plainOf, hbound]
    cases hfault : (⟨pfx, a.2⟩ : Binding).fault? with
    | none =>
      rw [if_pos ⟨by simp, by simpa using h, by simp [hbindings, hfault]⟩]
      simp [addAll, hbindings, hplain, hfault, Except.toOption]
    | some cause =>
      have hnot : ¬ t.Takes [a] := fun htakes => by
        have := htakes.2.2 ⟨pfx, a.2⟩ (by simp [hbindings])
        rw [hfault] at this
        cases this
      rw [if_neg hnot]
      simp [hfault, Except.toOption]

section

variable {d : Doctype} (noEntities : d.entities = []) (noRules : d.rules = [])

include noEntities noRules in
/-- Adding one attribute as it is written. -/
theorem toOption_addRaw (element : String) (here : List Glyph) (t : TagReading) {raw : RawAttribute}
    {a : WrittenAttribute} (h : (raw.name, raw.value) = (a.1, valueGlyphs a.2.toList)) :
    (addRaw d element here t raw).toOption = if t.Takes [a] then some (t.addAll [a]) else none := by
  obtain ⟨hname, hvalue⟩ := Prod.mk.inj h
  have htokens : d.isTokens element a.1 = false := by
    simp [Doctype.isTokens, Doctype.rulesOf, noRules]
  rw [addRaw, hname, hvalue, htokens, ← toList_escapeValue, attributeValue_escapeValue noEntities]
  by_cases hseen : a.1 ∈ t.seen
  · have hnot : ¬ t.Takes [a] := fun htakes => htakes.2.1 a (by simp) hseen
    rw [if_pos (by simpa using hseen), if_neg hnot]
    rfl
  · rw [if_neg (by simpa using hseen)]
    exact toOption_add here t a hseen

include noEntities noRules in
/-- **Adding attributes as they are written.** -/
theorem toOption_foldlM_addRaw (element : String) (here : List Glyph) {raws : List RawAttribute}
    {as : List WrittenAttribute} (h : ScannedAs as raws) (t : TagReading) :
    (raws.foldlM (addRaw d element here) t).toOption =
      if t.Takes as then some (t.addAll as) else none := by
  induction as generalizing raws t with
  | nil =>
    obtain rfl := List.map_eq_nil_iff.mp h
    rw [if_pos t.takes_nil]
    simp [addAll, bindingsOf, plainOf, pure, Except.pure, Except.toOption]
  | cons a as ih =>
    obtain ⟨raw, raws, rfl, hraw, hraws⟩ := List.map_eq_cons_iff.mp h
    have hfirst := toOption_addRaw noEntities noRules element here t hraw
    rw [List.foldlM_cons, addAll_cons, toOption_bind, hfirst]
    by_cases ha : t.Takes [a]
    · rw [if_pos ha, Option.bind_some, ih hraws]
      simp only [takes_cons, ha, true_and]
    · rw [if_neg ha, if_neg fun h => ha ((takes_cons t a as).mp h).1]
      rfl

end

end TagReading

/-- **What a written start tag says** is what its names and values say. -/
theorem toOption_read {d : Doctype} (noEntities : d.entities = []) (noRules : d.rules = [])
    (scope : Scope) (here : List Glyph) (tag : String) {raws : List RawAttribute}
    {as : List WrittenAttribute} (h : ScannedAs as raws) :
    (StartTag.read d scope here tag raws).toOption = readTag scope tag as := by
  have hfold := TagReading.toOption_foldlM_addRaw noEntities noRules tag here h { scope := scope }
  have hrules : d.rulesOf tag = [] := by simp [Doctype.rulesOf, noRules]
  have htakes : TagReading.Takes { scope := scope } as ↔
      (as.map (·.1)).Nodup ∧ ∀ b ∈ bindingsOf as, b.fault? = none := by
    simp [TagReading.Takes]
  rw [StartTag.read, toOption_bind, TagReading.ofTag, toOption_bind, hfold, readTag, hrules]
  simp only [htakes]
  split
  · simp only [Option.bind_some, List.foldlM_nil, pure, Except.pure, Except.toOption,
      TagReading.addAll, List.nil_append]
    cases resolveAttributes ((bindingsOf as).reverse ++ scope) [] (plainOf as) with
    | error cause => rfl
    | ok attributes =>
      cases resolveElement ((bindingsOf as).reverse ++ scope) tag <;> rfl
  · rfl

end StationNaming.Xml
