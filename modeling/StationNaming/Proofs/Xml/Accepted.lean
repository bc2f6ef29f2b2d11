import StationNaming.Proofs.Xml.Declared
import StationNaming.Proofs.Xml.Parsed
/-!
# What is read from a file

Whatever stands in a file, the bindings that reading it makes can be made, its names are spelled
with name characters, no attribute stands twice, and all texts and values are legible. So the tree
of a file is one that a file can hold.

**What is exact.** `sound_of_mem_read` covers the events of every file, also those before a fault,
and `sound_of_ofEvents?` the tree of every file that can be read.
-/

namespace StationNaming.Xml

/-! ## Outcomes -/

/-- **What holds of an outcome**, for a fault and for a result. -/
def Yields {ε α : Type} (Q : ε → Prop) (P : α → Prop) : Except ε α → Prop
  | .error e => Q e
  | .ok a => P a

section Yields

variable {ε α β : Type} {Q : ε → Prop} {P : α → Prop}

theorem Yields.bind {x : Except ε α} (hx : Yields Q P x) {P' : β → Prop} {f : α → Except ε β}
    (hf : ∀ a, P a → Yields Q P' (f a)) : Yields Q P' (x >>= f) := by
  cases x with
  | error e => exact hx
  | ok a => exact hf a hx

/-- **What every step keeps** holds after all of them. -/
theorem yields_foldlM {f : α → β → Except ε α} {bs : List β}
    (hstep : ∀ b ∈ bs, ∀ a, P a → Yields Q P (f a b)) {a : α} (ha : P a) :
    Yields Q P (bs.foldlM f a) := by
  induction bs generalizing a with
  | nil => exact ha
  | cons b bs ih =>
    obtain ⟨hb, hbs⟩ := List.forall_mem_cons.mp hstep
    rw [List.foldlM_cons]
    exact (hb a ha).bind fun a' ha' => ih hbs ha'

end Yields

/-! ## Names -/

/-- **A run of name characters with at most one colon is split** into runs without one. -/
theorem splitQName_of_isQToken {s : String} (h : IsQToken s.toList) :
    (splitQName s = (none, s) ∧ IsToken s.toList) ∨
      ∃ p l, splitQName s = (some p, l) ∧ IsToken p.toList ∧ IsToken l.toList := by
  rcases h with h | ⟨p, l, heq, hp, hl⟩
  · exact .inl ⟨splitQName_of_colon_notMem (colon_notMem_of_isToken h), h⟩
  · refine .inr ⟨String.ofList p, String.ofList l, ?_, by rwa [String.toList_ofList],
      by rwa [String.toList_ofList]⟩
    have hs : s = String.ofList p ++ ":" ++ String.ofList l := by
      rw [← String.toList_inj, heq]
      simp
    rw [hs]
    exact splitQName_append (by rw [String.toList_ofList]; exact colon_notMem_of_isToken hp) _

/-- A declared prefix is empty or a run of name characters. -/
theorem isToken_of_boundPrefix? {name pfx : String} (h : IsQToken name.toList)
    (hbound : boundPrefix? name = some pfx) : pfx = "" ∨ IsToken pfx.toList := by
  unfold boundPrefix? at hbound
  rcases splitQName_of_isQToken h with ⟨hsplit, -⟩ | ⟨p, l, hsplit, -, hl⟩
  · rw [hsplit] at hbound
    split at hbound
    · exact .inl (Option.some.inj hbound).symm
    · next heq => cases heq
    · cases hbound
  · rw [hsplit] at hbound
    split at hbound
    · next heq => cases heq
    · next heq =>
      cases heq
      exact .inr (Option.some.inj hbound ▸ hl)
    · cases hbound

/-- A scope whose bindings can all be made. -/
def Scope.Sound (scope : Scope) : Prop := ∀ b ∈ scope, b.Sound

theorem Scope.sound_initial : Scope.Sound Scope.initial :=
  List.forall_mem_singleton.mpr
    (PrefixRegistry.sound_initial.bindings _ PrefixRegistry.sound_initial.xml_mem).1

/-- A namespace that a prefix is bound to. -/
theorem Scope.Sound.isSpace {scope : Scope} (h : scope.Sound) {pfx uri : String}
    (hfind : scope.find? pfx = some uri) : IsSpace uri ∧ uri ≠ "" := by
  unfold Scope.find? at hfind
  split at hfind
  · next b hb =>
    split_ifs at hfind with hne
    obtain rfl := Option.some.inj hfind
    have hsound := h b (List.mem_of_find?_eq_some hb)
    obtain ⟨-, -, hbrace, -, hxmlns⟩ := (Binding.fault?_eq_none_iff b).mp hsound.faultless
    exact ⟨⟨hsound.legible, hbrace, hxmlns⟩, hne⟩
  · cases hfind

section Resolve

variable {scope : Scope} (hscope : scope.Sound) {name : String}
    (hname : IsQToken name.toList) {n : Name}

include hscope hname

/-- **A resolved name** is one that a file can hold, and one in no namespace is as it is written. -/
theorem sound_of_resolveAttribute (h : resolveAttribute scope name = some n) :
    n.Sound ∧ (n.space = "" → n.localName = name) := by
  unfold resolveAttribute at h
  rcases splitQName_of_isQToken hname with ⟨hsplit, htoken⟩ | ⟨p, l, hsplit, -, hl⟩
  · rw [hsplit] at h
    cases h
    exact ⟨⟨htoken, .inl rfl⟩, fun _ => rfl⟩
  · rw [hsplit] at h
    obtain ⟨uri, hfind, rfl⟩ := Option.map_eq_some_iff.mp h
    obtain ⟨hspace, hne⟩ := hscope.isSpace hfind
    exact ⟨⟨hl, .inr hspace⟩, fun hempty => absurd hempty hne⟩

theorem sound_of_resolveElement (h : resolveElement scope name = some n) : n.Sound := by
  unfold resolveElement at h
  rcases splitQName_of_isQToken hname with ⟨hsplit, htoken⟩ | ⟨p, l, hsplit, -, hl⟩
  · rw [hsplit] at h
    cases h
    refine ⟨htoken, ?_⟩
    cases hfind : scope.find? "" with
    | none => exact .inl rfl
    | some uri => exact .inr (hscope.isSpace hfind).1
  · rw [hsplit] at h
    obtain ⟨uri, hfind, rfl⟩ := Option.map_eq_some_iff.mp h
    exact ⟨hl, .inr (hscope.isSpace hfind).1⟩

end Resolve

/-! ## Start tags -/

/-- **Attributes that a file can hold** in one tag. -/
structure SoundAttributes (as : List Attribute) : Prop where
  each : ∀ a ∈ as, a.1.Sound ∧ a.1 ≠ ⟨"", "xmlns"⟩ ∧ IsDocumentText a.2
  distinct : (as.map (·.1)).Nodup

/-- Attributes as they are written, none of them a declaration. -/
structure SoundPlain (as : List WrittenAttribute) : Prop where
  each : ∀ a ∈ as, IsQToken a.1.toList ∧ boundPrefix? a.1 = none ∧ IsDocumentText a.2
  distinct : (as.map (·.1)).Nodup

/-- **Resolving the attributes of a tag** keeps them apart. -/
theorem sound_of_resolveAttributes {scope : Scope} (hscope : scope.Sound)
    {done result : List Attribute}
    {plain : List WrittenAttribute} (hplain : SoundPlain plain) (hdone : SoundAttributes done)
    (hapart : ∀ a ∈ done, a.1.space = "" → a.1.localName ∉ plain.map (·.1))
    (h : resolveAttributes scope done plain = .ok result) : SoundAttributes result := by
  induction plain generalizing done with
  | nil =>
    cases h
    exact hdone
  | cons a plain ih =>
    obtain ⟨name, value⟩ := a
    obtain ⟨⟨hname, hbound, hvalue⟩, heach⟩ := List.forall_mem_cons.mp hplain.each
    obtain ⟨hnew, hdistinct⟩ := List.nodup_cons.mp hplain.distinct
    rw [resolveAttributes] at h
    split at h
    · cases h
    · next n hresolve =>
      obtain ⟨hsound, hlocal⟩ := sound_of_resolveAttribute hscope hname hresolve
      split_ifs at h with hduplicate
      refine ih ⟨heach, hdistinct⟩ ⟨?_, ?_⟩ ?_ h
      · refine List.forall_mem_append.mpr
          ⟨hdone.each, List.forall_mem_singleton.mpr ⟨hsound, ?_, hvalue⟩⟩
        -- An attribute called `xmlns` would have been a declaration.
        rintro rfl
        rw [← hlocal rfl] at hbound
        exact absurd hbound (by decide)
      · refine Keyed.nodup_map_concat hdone.distinct fun d hd hsame => ?_
        by_cases hspace : n.space = ""
        · refine hapart d hd (hsame ▸ hspace) ?_
          rw [hsame, hlocal hspace]
          exact List.mem_cons_self
        · refine hduplicate ?_
          rw [Bool.and_eq_true, bne_iff_ne, List.any_eq_true]
          exact ⟨hspace, d, hd, beq_iff_eq.mpr hsame⟩
      · refine List.forall_mem_append.mpr ⟨?_, List.forall_mem_singleton.mpr ?_⟩
        · exact fun d hd hspace hmem => hapart d hd hspace (List.mem_cons_of_mem _ hmem)
        · intro hspace hmem
          rw [hlocal hspace] at hmem
          exact hnew hmem

/-- **What has been read of a tag.** -/
structure TagReading.Sound (t : TagReading) : Prop where
  scope : Scope.Sound t.scope
  bound : ∀ b ∈ t.bound, b.Sound
  plain : SoundPlain t.plain
  seen : ∀ a ∈ t.plain, a.1 ∈ t.seen

/-- A fault in a tag after bindings that can be made. -/
def TagFault.Sound (f : TagFault) : Prop := ∀ b ∈ f.bound, b.Sound

namespace TagReading

theorem Sound.add {t : TagReading} (h : t.Sound) (here : List Glyph) {name value : String}
    (hname : IsQToken name.toList) (hvalue : IsDocumentText value) (hnew : name ∉ t.seen) :
    Yields TagFault.Sound Sound (t.add here name value) := by
  rw [TagReading.add]
  split
  · next hbound =>
    refine ⟨h.scope, h.bound, ⟨?_, ?_⟩, ?_⟩
    · exact List.forall_mem_append.mpr
        ⟨h.plain.each, List.forall_mem_singleton.mpr ⟨hname, hbound, hvalue⟩⟩
    · refine Keyed.nodup_map_concat h.plain.distinct fun a ha hsame => hnew ?_
      have hold : a.1 = name := hsame
      exact hold ▸ h.seen a ha
    · refine List.forall_mem_append.mpr ⟨fun a ha => List.mem_cons_of_mem _ (h.seen a ha), ?_⟩
      exact List.forall_mem_singleton.mpr List.mem_cons_self
  · next pfx hbound =>
    dsimp only
    split
    · exact h.bound
    · next hfault =>
      have hb : (⟨pfx, value⟩ : Binding).Sound :=
        ⟨hfault, isToken_of_boundPrefix? hname hbound, hvalue⟩
      refine ⟨List.forall_mem_cons.mpr ⟨hb, h.scope⟩, ?_, h.plain, ?_⟩
      · exact List.forall_mem_append.mpr ⟨h.bound, List.forall_mem_singleton.mpr hb⟩
      · exact fun a ha => List.mem_cons_of_mem _ (h.seen a ha)

variable {d : Doctype} (hd : d.Sound)

include hd

theorem Sound.addRaw {t : TagReading} (h : t.Sound) (element : String) (here : List Glyph)
    {a : RawAttribute}
    (ha : a.Sound) : Yields TagFault.Sound Sound (addRaw d element here t a) := by
  rw [TagReading.addRaw]
  split_ifs with hseen
  · exact h.bound
  · split
    · exact h.bound
    · next value hvalue =>
      exact h.add here ha.name.isQToken
        (isDocumentText_of_attributeValue hd.entities ha.value hvalue)
        (by simpa using hseen)

omit hd in
theorem Sound.addDefault {t : TagReading} (h : t.Sound) (here : List Glyph) {rule : AttributeRule}
    (hrule : rule.Sound) : Yields TagFault.Sound Sound (addDefault here t rule) := by
  rw [TagReading.addDefault]
  split
  · exact h
  · next value hvalue =>
    split_ifs with hseen
    · exact h
    · exact h.add here hrule.name (hrule.default value hvalue) (by simpa using hseen)

theorem sound_ofTag {scope : Scope} (hscope : scope.Sound) (here : List Glyph) (element : String)
    {attributes : List RawAttribute} (hattributes : ∀ a ∈ attributes, a.Sound) :
    Yields TagFault.Sound Sound (ofTag d scope here element attributes) := by
  have hstart : Sound { scope := scope } :=
    ⟨hscope, List.forall_mem_nil _, ⟨List.forall_mem_nil _, List.nodup_nil⟩, List.forall_mem_nil _⟩
  rw [ofTag]
  refine (yields_foldlM (fun a ha t ht => ht.addRaw hd element here (hattributes a ha)) hstart).bind
    ?_
  intro t ht
  exact yields_foldlM (fun rule hrule t' ht' => ht'.addDefault here (hd.rulesOf element rule hrule))
    ht

end TagReading

/-- **A start tag that was read.** -/
structure StartTag.Sound (t : StartTag) : Prop where
  scope : Scope.Sound t.scope
  bound : ∀ b ∈ t.bound, b.Sound
  name : t.name.Sound
  attributes : SoundAttributes t.attributes

theorem StartTag.sound_read {d : Doctype} (hd : d.Sound) {scope : Scope} (hscope : scope.Sound)
    (here : List Glyph) {element : String} (helement : IsQToken element.toList)
    {attributes : List RawAttribute} (hattributes : ∀ a ∈ attributes, a.Sound) :
    Yields TagFault.Sound StartTag.Sound (StartTag.read d scope here element attributes) := by
  rw [StartTag.read]
  refine (TagReading.sound_ofTag hd hscope here element hattributes).bind fun t ht => ?_
  split
  · exact ht.bound
  · next as has =>
    split
    · exact ht.bound
    · next name hname =>
      refine ⟨ht.scope, ht.bound, sound_of_resolveElement ht.scope helement hname, ?_⟩
      exact sound_of_resolveAttributes ht.scope ht.plain ⟨List.forall_mem_nil _, List.nodup_nil⟩
        (List.forall_mem_nil _) has

/-! ## Events -/

/-- **An event of a file.** -/
def Event.Sound : Event → Prop
  | .bind b => b.Sound
  | .start n as => n.Sound ∧ SoundAttributes as
  | .text cs => AllDocument cs
  | .stop => True

/-- Events of a file before a fault. -/
def EventFault.Sound (f : EventFault) : Prop := ∀ e ∈ f.events, e.Sound

/-- **What has been read of the content.** -/
structure ContentState.Sound (st : ContentState) : Prop where
  events : ∀ e ∈ st.events, e.Sound
  opened : ∀ o ∈ st.opened, Scope.Sound o.scope

namespace ContentState

variable {st : ContentState} (h : st.Sound)

include h

theorem Sound.scope : Scope.Sound st.scope := by
  rw [ContentState.scope]
  split
  · exact Scope.sound_initial
  · next o outer hopened => exact h.opened o (hopened ▸ List.mem_cons_self)

theorem Sound.push {e : Event} (he : e.Sound) : (st.push e).Sound :=
  ⟨List.forall_mem_cons.mpr ⟨he, h.events⟩, h.opened⟩

theorem Sound.start {d : Doctype} (hd : d.Sound) (here : List Glyph) {name : String}
    (hname : IsQToken name.toList) {attributes : List RawAttribute}
    (hattributes : ∀ a ∈ attributes, a.Sound)
    (isEmpty : Bool) :
    Yields EventFault.Sound Sound (st.start d here name attributes isEmpty) := by
  have hbind : ∀ {bs : List Binding}, (∀ b ∈ bs, b.Sound) →
      ∀ e ∈ (bs.map Event.bind).reverse ++ st.events, e.Sound := by
    intro bs hbs
    refine List.forall_mem_append.mpr ⟨fun e he => ?_, h.events⟩
    obtain ⟨b, hb, rfl⟩ := List.mem_map.mp (List.mem_reverse.mp he)
    exact hbs b hb
  have hread := StartTag.sound_read hd h.scope here hname hattributes
  rw [ContentState.start]
  dsimp only
  split
  · next f hf =>
    rw [hf] at hread
    exact hbind hread
  · next tag htag =>
    rw [htag] at hread
    have hevents := List.forall_mem_cons.mpr
      ⟨(show (Event.start tag.name tag.attributes).Sound from ⟨hread.name, hread.attributes⟩),
        hbind hread.bound⟩
    split_ifs
    · exact ⟨List.forall_mem_cons.mpr ⟨trivial, hevents⟩, h.opened⟩
    · exact ⟨hevents, List.forall_mem_cons.mpr ⟨hread.scope, h.opened⟩⟩

theorem Sound.stop (floor : Nat) (here nameAt : List Glyph) (name : String) :
    Yields EventFault.Sound Sound (st.stop floor here nameAt name) := by
  rw [ContentState.stop]
  split
  · exact h.events
  · next o outer hopened =>
    split_ifs
    · exact h.events
    · refine ⟨List.forall_mem_cons.mpr ⟨trivial, h.events⟩, fun o' ho' => h.opened o' ?_⟩
      rw [hopened]
      exact List.mem_cons_of_mem o ho'
    · exact h.events

end ContentState

/-- An entity in content stands for a character that may stand in a document, or for a legible
text. -/
theorem sound_of_resolveEntity {d : Doctype} {available rest : Entities} (h : available.Sound)
    {name : String} {cs : List Char} (hresolve : resolveEntity d available name = .text cs rest) :
    Legible (entityGlyphs cs) ∧ Entities.Sound rest := by
  unfold resolveEntity at hresolve
  split at hresolve
  · cases hresolve
  · split at hresolve
    · next htake =>
      cases hresolve
      exact h.takeEntity?_text htake
    all_goals cases hresolve

theorem isDocumentChar_of_resolveEntity {d : Doctype} {available : Entities}
    {name : String} {c : Char}
    (hresolve : resolveEntity d available name = .character c) : IsDocumentChar c := by
  unfold resolveEntity at hresolve
  split at hresolve
  · next hpredefined =>
    cases hresolve
    exact isDocumentChar_of_predefined? hpredefined
  · split at hresolve <;> cases hresolve

/-- **Reading content** yields sound events, up to a fault if there is one. -/
theorem sound_readContent {s : Setting} (hs : s.doctype.Sound) {available : Entities}
    (havailable : available.Sound) (floor : Nat) {st : ContentState} (hst : st.Sound)
    {cs : List Glyph} (hcs : Legible cs) :
    Yields EventFault.Sound (fun r => r.1.Sound ∧ Legible r.2)
    (readContent s available floor st cs) := by
  fun_induction readContent s available floor st cs
  case case2 => exact ⟨hst, hcs⟩
  case case6 text rest hscan ih =>
    obtain ⟨htext, hrest⟩ := sound_of_scanContent hcs hscan
    exact ih havailable (hst.push htext) hrest
  case case7 rest hscan ih => exact ih havailable hst (sound_of_scanContent hcs hscan).2
  case case10 code rest hscan c hc ih =>
    have htext : (Event.text [c]).Sound :=
      List.forall_mem_singleton.mpr (isDocumentChar_of_referenced? hc)
    exact ih havailable (hst.push htext) (sound_of_scanContent hcs hscan).2
  case case12 name rest hscan c hresolve ih =>
    have htext : (Event.text [c]).Sound :=
      List.forall_mem_singleton.mpr (isDocumentChar_of_resolveEntity hresolve)
    exact ih havailable (hst.push htext) (sound_of_scanContent hcs hscan).2
  case case13 name rest hscan text available' hresolve f hf ih =>
    obtain ⟨htext, havailable'⟩ := sound_of_resolveEntity havailable hresolve
    have hinside := ih havailable' hst htext
    rw [hf] at hinside
    exact hinside
  case case14 name rest hscan text available' hresolve st' rest' hst' ihinside ih =>
    obtain ⟨htext, havailable'⟩ := sound_of_resolveEntity havailable hresolve
    have hinside := ihinside havailable' hst htext
    rw [hst'] at hinside
    exact ih havailable hinside.1 (sound_of_scanContent hcs hscan).2
  case case15 g gs _ name attributes isEmpty rest hscan f hf =>
    obtain ⟨⟨hname, hattributes⟩, -⟩ := sound_of_scanContent hcs hscan
    have hstart := hst.start hs (g :: gs) hname.isQToken hattributes isEmpty
    rw [hf] at hstart
    exact hstart
  case case16 g gs _ name attributes isEmpty rest hscan st' hst' _ =>
    obtain ⟨⟨hname, hattributes⟩, hrest⟩ := sound_of_scanContent hcs hscan
    have hstart := hst.start hs (g :: gs) hname.isQToken hattributes isEmpty
    rw [hst'] at hstart
    exact ⟨hstart, hrest⟩
  case case17 g gs _ name attributes isEmpty rest hscan st' hst' _ ih =>
    obtain ⟨⟨hname, hattributes⟩, hrest⟩ := sound_of_scanContent hcs hscan
    have hstart := hst.start hs (g :: gs) hname.isQToken hattributes isEmpty
    rw [hst'] at hstart
    exact ih havailable hstart hrest
  case case18 floor st g gs _ name nameAt rest hscan f hf =>
    have hstop := hst.stop floor (g :: gs) nameAt name
    rw [hf] at hstop
    exact hstop
  case case19 floor st g gs _ name nameAt rest hscan st' hst' _ =>
    have hstop := hst.stop floor (g :: gs) nameAt name
    rw [hst'] at hstop
    exact ⟨hstop, (sound_of_scanContent hcs hscan).2⟩
  case case20 floor st g gs _ name nameAt rest hscan st' hst' _ ih =>
    have hstop := hst.stop floor (g :: gs) nameAt name
    rw [hst'] at hstop
    exact ih havailable hstop (sound_of_scanContent hcs hscan).2
  all_goals exact hst.events

/-! ## Files -/

/-- What is read of a decoded document. -/
theorem sound_of_mem_decoded_read {d : Decoded} (hstart : d.start.Sound) (hbody : Legible d.body) :
    ∀ e ∈ d.read.events, e.Sound := by
  have hinitial : ContentState.Sound {} := ⟨List.forall_mem_nil _, List.forall_mem_nil _⟩
  rw [Decoded.read]
  dsimp only
  split
  · exact List.forall_mem_nil _
  · next doctype cs hprolog =>
    obtain ⟨hdoctype, hcs⟩ := sound_of_readProlog hstart hbody hprolog
    have hread := sound_readContent (s := ⟨doctype, d.isTorn⟩) hdoctype hdoctype.entities 0
      hinitial hcs
    split
    · next f hf =>
      rw [hf] at hread
      exact fun e he => hread e (List.mem_reverse.mp he)
    · next st rest hst =>
      rw [hst] at hread
      split <;> exact fun e he => hread.1.events e (List.mem_reverse.mp he)

theorem PrologState.sound_initial (standalone : Bool) (expect : Expect)
    (h : expect.isInAttribute = false) :
    PrologState.Sound { expect := expect, doctype := { standalone := standalone } } :=
  sound_of_doctype ⟨List.forall_mem_nil _, List.forall_mem_nil _⟩ h

/-- What follows an XML declaration is legible, also under the encoding that the declaration
names. -/
theorem sound_of_declared {d d' : Decoded} {bytes : List UInt8} {content rest : List Glyph}
    (hrest : Legible rest) (h : d.declared bytes content rest = .ok d') :
    d'.start.Sound ∧ Legible d'.body := by
  have hstart : ∀ standalone : Bool, PrologState.Sound
      { expect := .doctypeOrRoot, doctype := { standalone := standalone } } :=
    fun standalone => PrologState.sound_initial standalone .doctypeOrRoot rfl
  unfold Decoded.declared at h
  dsimp only at h
  split at h
  · cases h
  · split at h
    · cases h
      exact ⟨hstart _, hrest⟩
    · split at h
      case h_4 e _ =>
        split_ifs at h
        · cases h
          exact ⟨hstart _, hrest⟩
        · cases h
          exact ⟨hstart _, legible_decode e _⟩
      all_goals cases h

/-- **What is decoded** is legible. -/
theorem sound_of_ofBytes {bytes : List UInt8} {d : Decoded} (h : Decoded.ofBytes bytes = .ok d) :
    d.start.Sound ∧ Legible d.body := by
  have hstart : PrologState.Sound {} := PrologState.sound_initial false .anything rfl
  unfold Decoded.ofBytes at h
  dsimp only at h
  split at h
  · cases h
    exact ⟨hstart, legible_nil⟩
  · have hwhole := legible_decode (detect bytes).encoding bytes
    generalize (detect bytes).encoding.decode bytes = decoded at h hwhole
    have hbody : Legible (if (detect bytes).markSize = 0 then decoded.1 else decoded.1.drop 1) := by
      split_ifs
      · exact hwhole
      · exact hwhole.mono (List.drop_subset _ _)
    split at h
    · next content rest hscan =>
      exact sound_of_declared (sound_of_scanProlog hbody hscan).2 h
    · cases h
      exact ⟨hstart, hbody⟩

/-- **Every event of a file** is sound, also before a fault. -/
theorem sound_of_mem_read (bytes : List UInt8) : ∀ e ∈ (read bytes).events, e.Sound := by
  rw [read]
  split
  · exact List.forall_mem_nil _
  · next d hd =>
    obtain ⟨hstart, hbody⟩ := sound_of_ofBytes hd
    exact sound_of_mem_decoded_read hstart hbody

/-! ## Trees -/

namespace Element

/-- A tree that a file can hold, with no text after it yet. -/
structure SoundFrame (f : Frame) : Prop where
  name : f.name.Sound
  attributes : SoundAttributes f.attributes
  text : IsDocumentText f.text
  children : ∀ c ∈ f.children, Sound c

theorem Sound.addTail {e : Element} (h : e.Sound) {more : String} (hmore : IsDocumentText more) :
    (e.addTail more).Sound := by
  obtain ⟨n, as, t, cs, tl⟩ := e
  obtain ⟨hlabel, hcs⟩ := sound_mk.mp h
  have htail : IsDocumentText (tl ++ more) := IsDocumentText.append hlabel.tail hmore
  exact sound_mk.mpr ⟨{ hlabel with tail := htail }, hcs⟩

theorem SoundFrame.addText {f : Frame} (h : SoundFrame f) {more : String}
    (hmore : IsDocumentText more) :
    SoundFrame (f.addText more) := by
  rw [Frame.addText]
  split
  · exact ⟨h.name, h.attributes, h.text.append hmore, h.children⟩
  · next c cs hcs =>
    obtain ⟨hc, hrest⟩ := List.forall_mem_cons.mp (hcs ▸ h.children)
    exact ⟨h.name, h.attributes, h.text, List.forall_mem_cons.mpr ⟨hc.addTail hmore, hrest⟩⟩

theorem SoundFrame.close {f : Frame} (h : SoundFrame f) : f.close.Sound ∧ f.close.tail = "" := by
  refine ⟨sound_mk.mpr ⟨⟨h.name, h.attributes.each, h.attributes.distinct, h.text, ?_⟩, ?_⟩, rfl⟩
  · exact fun c hc => absurd hc (by simp)
  · exact fun c hc => h.children c (List.mem_reverse.mp hc)

theorem sound_of_ofEventsIn {es : List Event} (hes : ∀ e ∈ es, e.Sound) {frames : List Frame}
    (hframes : ∀ f ∈ frames, SoundFrame f) {root : Option Element}
    (hroot : ∀ e, root = some e → e.Sound ∧ e.tail = "") {e : Element}
    (h : ofEventsIn frames root es = some e) : e.Sound ∧ e.tail = "" := by
  fun_induction ofEventsIn frames root es
  case case1 => exact hroot e h
  case case2 | case7 => cases h
  case case3 frames root b es ih => exact ih (List.forall_mem_cons.mp hes).2 hframes hroot h
  case case4 frames root n as es ih =>
    obtain ⟨⟨hn, has⟩, hes⟩ := List.forall_mem_cons.mp hes
    have hnew : SoundFrame { name := n, attributes := as } :=
      ⟨hn, has, fun c hc => absurd hc (by simp), List.forall_mem_nil _⟩
    exact ih hes (List.forall_mem_cons.mpr ⟨hnew, hframes⟩) hroot h
  case case5 root cs es ih => exact ih (List.forall_mem_cons.mp hes).2 hframes hroot h
  case case6 root cs es f outer ih =>
    obtain ⟨hcs, hes⟩ := List.forall_mem_cons.mp hes
    obtain ⟨hf, houter⟩ := List.forall_mem_cons.mp hframes
    have htext : IsDocumentText (String.ofList cs) := by
      rw [IsDocumentText, String.toList_ofList]
      exact hcs
    exact ih hes (List.forall_mem_cons.mpr ⟨hf.addText htext, houter⟩) hroot h
  case case8 root es f ih =>
    have hf := (List.forall_mem_cons.mp hframes).1
    exact ih (List.forall_mem_cons.mp hes).2 (List.forall_mem_nil _)
      (fun e he => Option.some.inj he ▸ hf.close) h
  case case9 root es f g outer ih =>
    obtain ⟨hf, hrest⟩ := List.forall_mem_cons.mp hframes
    obtain ⟨hg, houter⟩ := List.forall_mem_cons.mp hrest
    have hchild : SoundFrame { g with children := f.close :: g.children } :=
      ⟨hg.name, hg.attributes, hg.text, List.forall_mem_cons.mpr ⟨hf.close.1, hg.children⟩⟩
    exact ih (List.forall_mem_cons.mp hes).2 (List.forall_mem_cons.mpr ⟨hchild, houter⟩) hroot h

/-- **The tree of a file** is one that a file can hold, and nothing stands after it. -/
theorem sound_of_ofEvents? {bytes : List UInt8} {root : Element}
    (h : ofEvents? (read bytes).events = some root) : root.Sound ∧ root.tail = "" := by
  refine sound_of_ofEventsIn (sound_of_mem_read bytes) (List.forall_mem_nil _) ?_ h
  intro e he
  cases he

end Element

end StationNaming.Xml
