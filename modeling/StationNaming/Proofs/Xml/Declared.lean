import Mathlib.Data.Option.Basic
import StationNaming.Proofs.Xml.Scanned
import StationNaming.Xml.Reader
/-!
# What a document type declares

The entities of a document type stand for legible texts, the attributes that it declares have names,
and their defaults are legible. So are the values that are made with them.

**What is exact.** `sound_of_readProlog` covers every prolog that is read from legible glyphs.
-/

namespace StationNaming.Xml

/-! ## Entities -/

/-- An entity that stands for a legible text, or for none. -/
def EntityContent.Sound : EntityContent → Prop
  | .text cs => AllDocument cs
  | .external | .unparsed => True

/-- Every entity stands for a legible text, or for none. -/
def Entities.Sound (es : Entities) : Prop := ∀ e ∈ es, e.2.Sound

theorem Entities.Sound.takeEntity? {es rest : Entities} {name : String} {content : EntityContent}
    (h : es.Sound) (htake : takeEntity? name es = some (content, rest)) :
    content.Sound ∧ Entities.Sound rest := by
  fun_induction Xml.takeEntity? name es generalizing content rest with
  | case1 => cases htake
  | case2 e es hname =>
    cases htake
    exact List.forall_mem_cons.mp h
  | case3 e es hname ih =>
    obtain ⟨he, hes⟩ := List.forall_mem_cons.mp h
    obtain ⟨found, hfound, heq⟩ := Option.map_eq_some_iff.mp htake
    cases heq
    obtain ⟨hcontent, hrest⟩ := @ih found.2 found.1 hes hfound
    exact ⟨hcontent, List.forall_mem_cons.mpr ⟨he, hrest⟩⟩

theorem legible_entityGlyphs {cs : List Char} (h : AllDocument cs) : Legible (entityGlyphs cs) := by
  intro c hc
  obtain ⟨d, hd, hglyph⟩ := List.mem_map.mp hc
  split_ifs at hglyph
  exact Glyph.char.inj hglyph ▸ h d hd

/-- The text of an entity is legible, and so are the entities that are left. -/
theorem Entities.Sound.takeEntity?_text {es rest : Entities} {name : String} {text : List Char}
    (h : es.Sound) (htake : Xml.takeEntity? name es = some (.text text, rest)) :
    Legible (entityGlyphs text) ∧ Entities.Sound rest :=
  (h.takeEntity? htake).imp_left legible_entityGlyphs

/-! ## Values -/

theorem AllDocument.pushBlank {acc : List Char} (h : AllDocument acc) (isTokens : Bool) :
    AllDocument (pushBlank isTokens acc) := by
  have hblank : IsDocumentChar ' ' := by decide
  unfold Xml.pushBlank
  grind

theorem AllDocument.reverse {cs : List Char} (h : AllDocument cs) : AllDocument cs.reverse :=
  fun c hc => h c (List.mem_reverse.mp hc)

@[grind .]
theorem AllDocument.append {cs ds : List Char} (hcs : AllDocument cs) (hds : AllDocument ds) :
    AllDocument (cs ++ ds) := List.forall_mem_append.mpr ⟨hcs, hds⟩

/-- **A value is legible** if the entities in it are. -/
theorem allDocument_of_normalize {d : Doctype} {isTokens : Bool} {available : Entities}
    {acc acc' : List Char} {cs : List Glyph} (havailable : available.Sound) (hacc : AllDocument acc)
    (h : Legible cs) (hvalue : normalize d isTokens available acc cs = .ok acc') :
      AllDocument acc' := by
  fun_induction normalize d isTokens available acc cs generalizing acc' <;>
    grind [→ legible_of_scanReference, → isDocumentChar_of_referenced?, →
      isDocumentChar_of_predefined?,
      → Entities.Sound.takeEntity?_text, AllDocument.pushBlank]

theorem isDocumentText_of_attributeValue {d : Doctype} {isTokens : Bool} {cs : List Glyph}
    {value : String} (hentities : Entities.Sound d.entities) (h : Legible cs)
    (hvalue : attributeValue d isTokens cs = .ok value) : IsDocumentText value := by
  unfold attributeValue at hvalue
  split at hvalue
  · cases hvalue
  · next acc hnormal =>
    have hacc := allDocument_of_normalize hentities allDocument_nil h hnormal
    cases hvalue
    intro c hc
    rw [String.toList_ofList, List.mem_reverse] at hc
    split_ifs at hc
    · exact hacc c (List.dropWhile_subset _ hc)
    · exact hacc c hc

/-- **What an entity is declared to stand for** is legible. -/
theorem allDocument_of_entityText {cs : List Glyph} {text : List Char} (h : Legible cs)
    (htext : entityText cs = .ok text) : AllDocument text := by
  have hfeed := isDocumentChar_feed
  have hampersand : IsDocumentChar '&' := by decide
  have hsemicolon : IsDocumentChar ';' := by decide
  fun_induction entityText cs generalizing text <;>
    grind [→ legible_of_scanReference, → isDocumentChar_of_referenced?, →
      allDocument_of_scanReference]

/-! ## Rules -/

/-- **A declared attribute** has a name, and its default is legible. -/
structure AttributeRule.Sound (r : AttributeRule) : Prop where
  name : IsQToken r.name.toList
  default : ∀ value, r.default = some value → IsDocumentText value

/-- **A document type that was read from legible glyphs.** -/
structure Doctype.Sound (d : Doctype) : Prop where
  entities : Entities.Sound d.entities
  rules : ∀ e ∈ d.rules, ∀ r ∈ e.2, r.Sound

namespace Doctype.Sound

variable {d : Doctype} (h : d.Sound)

include h

theorem rulesOf (element : String) : ∀ r ∈ d.rulesOf element, r.Sound := by
  intro r hr
  rw [Doctype.rulesOf] at hr
  cases hlookup : d.rules.lookup element with
  | none =>
    rw [hlookup] at hr
    exact absurd hr List.not_mem_nil
  | some rules =>
    rw [hlookup] at hr
    obtain ⟨l, r', heq, -⟩ := List.lookup_eq_some_iff.mp hlookup
    exact h.rules (element, rules) (heq ▸ by simp) r hr

theorem setEntity (name : String) {content : EntityContent} (hcontent : content.Sound) :
    (d.setEntity name content).Sound where
  entities := List.forall_mem_append.mpr
    ⟨fun e he => h.entities e (List.mem_filter.mp he).1, List.forall_mem_singleton.mpr hcontent⟩
  rules := h.rules

theorem addRule (element : String) {rule : AttributeRule} (hrule : rule.Sound) (isWeighty : Bool) :
    (d.addRule element rule isWeighty).Sound := by
  rw [Doctype.addRule]
  split_ifs
  · exact h
  · refine ⟨h.entities,
      List.forall_mem_cons.mpr ⟨?_, fun e he => h.rules e (List.mem_filter.mp he).1⟩⟩
    exact List.forall_mem_append.mpr ⟨h.rulesOf element, List.forall_mem_singleton.mpr hrule⟩

end Doctype.Sound

/-! ## The machine -/

/-- Whether the machine is in the declaration of an attribute whose name it has read. -/
def Expect.isInAttribute : Expect → Bool
  | .attributeType | .enumerationItem | .enumerationNext | .notationOpen | .notationItem |
      .notationNext
  | .attributeDefault | .attributeFixed => true
  | _ => false

/-- **A state of the machine** that was reached over legible glyphs. -/
structure PrologState.Sound (st : PrologState) : Prop where
  doctype : st.doctype.Sound
  attr : st.expect.isInAttribute = true → IsQToken st.attr.toList

namespace PrologState

variable {st st' : PrologState} {token : PrologToken} {here : List Glyph}

theorem Sound.setEntity (h : st.Sound) {content : EntityContent} (hcontent : content.Sound) :
    (st.setEntity content).Sound := by
  unfold PrologState.setEntity
  split
  · exact h
  · exact ⟨h.doctype.setEntity _ hcontent, h.attr⟩

theorem Sound.nameEntity (h : st.Sound) (name : String) : (st.nameEntity name).Sound := by
  unfold PrologState.nameEntity
  split_ifs
  · exact ⟨h.doctype, h.attr⟩
  · exact ⟨h.doctype, h.attr⟩

theorem Sound.entityValue (h : st.Sound) {content close : List Glyph} (hcontent : Legible content)
    (hvalue : st.entityValue here content close = .ok st') : st'.Sound := by
  unfold PrologState.entityValue at hvalue
  split_ifs at hvalue
  · split at hvalue
    · cases hvalue
    · next text htext =>
      cases hvalue
      exact h.setEntity (allDocument_of_entityText hcontent htext)
  · cases hvalue
    exact h

theorem eq_of_checkPublicId {content close : List Glyph}
    (h : st.checkPublicId content close = .ok st') :
    st' = st := by
  unfold PrologState.checkPublicId at h
  grind

theorem Sound.attributeDefault (h : st.Sound) (hattr : IsQToken st.attr.toList)
    {content close : List Glyph}
    (hcontent : Legible content) (hdefault : st.attributeDefault here content close = .ok st') :
    st'.Sound := by
  unfold PrologState.attributeDefault at hdefault
  split_ifs at hdefault
  · split at hdefault
    · cases hdefault
    · next value hvalue =>
      have htext := isDocumentText_of_attributeValue h.doctype.entities hcontent hvalue
      cases hdefault
      refine ⟨h.doctype.addRule _ ⟨hattr, ?_⟩ true, h.attr⟩
      intro v hv
      exact Option.some.inj hv ▸ htext
  · cases hdefault
    exact h

theorem Sound.attributeWithout (h : st.Sound) (hattr : IsQToken st.attr.toList) :
    st.attributeWithout.Sound := by
  unfold PrologState.attributeWithout
  split_ifs
  · refine ⟨h.doctype.addRule _ ⟨hattr, ?_⟩ _, h.attr⟩
    intro v hv
    cases hv
  · exact h

/-- The state is sound outside the declarations of attributes, if the document type is. -/
theorem sound_of_doctype (h : st.doctype.Sound) (he : st.expect.isInAttribute = false) : st.Sound :=
  ⟨h, fun hin => absurd (he.symm.trans hin) Bool.false_ne_true⟩

/-- A step outside a document type keeps the state sound. -/
theorem Sound.stepTop (h : st.Sound) (hstep : st.stepTop token = some (.ok st')) : st'.Sound := by
  unfold PrologState.stepTop at hstep
  split at hstep <;> cases hstep
  all_goals first
    | exact h
    | exact sound_of_doctype h.doctype rfl

/-- **A step in the head of a document type** keeps the state sound. -/
theorem Sound.stepDoctype (h : st.Sound) (hstep : st.stepDoctype token = some (.ok st')) :
    st'.Sound := by
  have hdoctype : ∀ b c :
    Bool, Doctype.Sound { st.doctype with hasOutsideParts := b, reading := c } :=
    fun _ _ => ⟨h.doctype.entities, h.doctype.rules⟩
  unfold PrologState.stepDoctype at hstep
  split at hstep
  case h_7 content close _ _ =>
    rw [eq_of_checkPublicId (Option.some.inj hstep)]
    exact sound_of_doctype (hdoctype _ _) rfl
  case h_17 => 
    cases hstep
    exact ⟨hdoctype _ _, h.attr⟩
  all_goals cases hstep
  all_goals first
    | exact h
    | exact sound_of_doctype h.doctype rfl
    | exact sound_of_doctype (hdoctype _ _) rfl

/-- **A step in the declaration of an entity** keeps the state sound. -/
theorem Sound.stepEntity (h : st.Sound) (htoken : token.Sound)
    (hstep : st.stepEntity token here = some (.ok st')) : st'.Sound := by
  have hawait : ∀ e : Expect, e.isInAttribute = false → (st.await e).Sound :=
    fun e he => sound_of_doctype h.doctype he
  have hexternal := h.setEntity (show EntityContent.external.Sound from trivial)
  have hunparsed := h.setEntity (show EntityContent.unparsed.Sound from trivial)
  unfold PrologState.stepEntity at hstep
  split at hstep
  case h_6 content close _ _ =>
    exact (hawait .declarationEnd rfl).entityValue htoken (Option.some.inj hstep)
  case h_7 | h_15 =>
    rw [eq_of_checkPublicId (Option.some.inj hstep)]
    exact hawait _ rfl
  all_goals cases hstep
  all_goals first
    | exact sound_of_doctype h.doctype rfl
    | exact sound_of_doctype (h.nameEntity _).doctype rfl
    | exact sound_of_doctype hexternal.doctype rfl
    | exact sound_of_doctype hunparsed.doctype rfl

/-- **A step in the declaration of attributes** keeps the state sound. -/
theorem Sound.stepAttlist (h : st.Sound) (htoken : token.Sound)
    (hstep : st.stepAttlist token here = some (.ok st')) : st'.Sound := by
  have hname : ∀ {e : Expect}, st.expect = e → e.isInAttribute = true → IsQToken st.attr.toList :=
    fun heq he => h.attr (heq ▸ he)
  unfold PrologState.stepAttlist at hstep
  split at hstep
  case h_4 s heq | h_5 s heq =>
    cases hstep
    exact ⟨h.doctype, fun _ => htoken⟩
  case h_6 s heq =>
    have hattr := hname heq rfl
    split_ifs at hstep <;> cases hstep <;> exact ⟨h.doctype, fun _ => hattr⟩
  case h_17 heq | h_18 heq =>
    cases hstep
    exact sound_of_doctype (h.attributeWithout (hname heq rfl)).doctype rfl
  case h_20 content close heq | h_21 content close heq =>
    have hafter : (st.await .attributeName).Sound := sound_of_doctype h.doctype rfl
    exact hafter.attributeDefault (hname heq rfl) htoken (Option.some.inj hstep)
  all_goals cases hstep
  all_goals first
    | exact sound_of_doctype h.doctype rfl
    | exact ⟨h.doctype, fun _ => hname (by assumption) rfl⟩

/-- **A step in the declaration of an element** keeps the state sound. -/
theorem Sound.stepElement (h : st.Sound) (hstep : st.stepElement token here = some (.ok st')) :
    st'.Sound := by
  have hconnect : ∀ b : Bool, st.connect b here = .ok st' → st'.Sound := by
    intro b hb
    unfold PrologState.connect at hb
    split at hb
    · split_ifs at hb
      cases hb
      exact sound_of_doctype h.doctype rfl
    · cases hb
      exact sound_of_doctype h.doctype rfl
    · cases hb
      exact sound_of_doctype h.doctype rfl
  have hclose : st.closeGroup.Sound := by
    refine sound_of_doctype h.doctype ?_
    unfold PrologState.closeGroup
    dsimp only
    split_ifs <;> rfl
  unfold PrologState.stepElement at hstep
  split at hstep
  all_goals first
    | exact hconnect _ (Option.some.inj hstep)
    | cases hstep
  all_goals first
    | exact hclose
    | exact sound_of_doctype h.doctype rfl

/-- **Every step of the machine** keeps its state sound. -/
theorem Sound.step (h : st.Sound) (htoken : token.Sound) (hstep : st.step token here = .ok st') :
    st'.Sound := by
  unfold PrologState.step at hstep
  split at hstep
  · cases hstep
    split_ifs
    · exact sound_of_doctype h.doctype rfl
    · exact h
  · have htaken : ∀ {o : Option (Except Fault PrologState)} {f : Fault},
        o.getD (.error f) = .ok st' → o = some (.ok st') := by
      intro o f ho
      cases o with
      | none => cases ho
      | some r => exact congrArg some ho
    -- The first of the five kinds of steps that takes the token decides.
    have hfirst := htaken hstep
    simp only [Option.orElse_eq_some] at hfirst
    rcases hfirst with htop | ⟨-, hdoctype | ⟨-, hentity | ⟨-, hattlist | ⟨-, helement⟩⟩⟩⟩
    · exact h.stepTop htop
    · exact h.stepDoctype hdoctype
    · exact h.stepEntity htoken hentity
    · exact h.stepAttlist htoken hattlist
    · exact h.stepElement helement

end PrologState

/-- **The prolog of a document** declares what is sound, and what follows it is legible. -/
theorem sound_of_readProlog {isTorn : Bool} {st : PrologState} {cs rest : List Glyph} {d : Doctype}
    (h : st.Sound) (hcs : Legible cs) (hread : readProlog isTorn st cs = .ok (d, rest)) :
    d.Sound ∧ Legible rest := by
  fun_induction readProlog isTorn st cs with
  | case1 => cases hread
  | case2 => cases hread
  | case3 st g gs token rest' hscan hroot hallowed =>
    cases hread
    exact ⟨h.doctype, hcs⟩
  | case4 => cases hread
  | case5 => cases hread
  | case6 st g gs token rest' hscan hroot st' hstep ih =>
    obtain ⟨htoken, hrest⟩ := sound_of_scanProlog hcs hscan
    exact ih (h.step htoken hstep) hrest hread

end StationNaming.Xml
