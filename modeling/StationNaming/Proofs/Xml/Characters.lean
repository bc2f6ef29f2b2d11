import Mathlib.Tactic.Common
import StationNaming.Proofs.Xml.Names
import StationNaming.Xml.Encoding
/-!
# The characters of a document

Some characters may not stand in a document. All others survive being encoded as UTF-8 and decoded
again, and no decoding ever yields one of the characters that may not stand.

**What is exact.** `decodeUtf8_toUTF8` covers every text that may stand in a document, and
`legible_decode` every encoding and every list of bytes, complete or not.
-/

namespace StationNaming.Xml

/-! ## Characters that may stand in a document -/

/-- **A character that may stand in a document.** -/
def IsDocumentChar (c : Char) : Prop := glyphOf c = .char c

instance (c : Char) : Decidable (IsDocumentChar c) := inferInstanceAs (Decidable (_ = _))

/-- Every character of a text may stand in a document. -/
def IsDocumentText (s : String) : Prop := ∀ c ∈ s.toList, IsDocumentChar c

/-- Every character among some glyphs may stand in a document. -/
def Legible (cs : List Glyph) : Prop := ∀ c, .char c ∈ cs → IsDocumentChar c

theorem legible_glyphs {cs : List Char} : Legible (glyphs cs) ↔ ∀ c ∈ cs, IsDocumentChar c := by
  simp [Legible, glyphs]

theorem IsDocumentText.append {s t : String} (hs : IsDocumentText s) (ht : IsDocumentText t) :
    IsDocumentText (s ++ t) := by
  intro c hc
  rw [String.toList_append] at hc
  exact (List.mem_append.mp hc).elim (hs c) (ht c)

/-- A closed text is checked character by character. -/
theorem isDocumentText_of_all {s : String}
    (h : (s.toList.all fun c => decide (IsDocumentChar c)) = true) : IsDocumentText s :=
  fun c hc => of_decide_eq_true (List.all_eq_true.mp h c hc)

theorem isDocumentChar_iff (c : Char) : IsDocumentChar c ↔
    (0x20 ≤ c.toNat ∨ c.toNat = 9 ∨ c.toNat = 10 ∨ c.toNat = 13) ∧ c.toNat ≠ 0xFFFE ∧
      c.toNat ≠ 0xFFFF := by
  simp only [IsDocumentChar, glyphOf, Bool.or_eq_true, Bool.and_eq_true,
    decide_eq_true_eq, bne_iff_ne, beq_iff_eq]
  split
  · refine ⟨nofun, ?_⟩
    omega
  · refine ⟨fun _ => by omega, fun _ => rfl⟩

/-- No range of name characters reaches beyond the Hangul syllables. -/
theorem le_of_inRanges {ranges : List (Nat × Nat)} {n bound : Nat}
    (hbound : ∀ r ∈ ranges, r.2 ≤ bound) (h : inRanges ranges n = true) : n ≤ bound := by
  obtain ⟨r, hr, hin⟩ := List.any_eq_true.mp h
  simp only [Bool.and_eq_true, decide_eq_true_eq] at hin
  exact hin.2.trans (hbound r hr)

theorem isDocumentChar_of_isNameChar {c : Char} (h : isNameChar c = true) : IsDocumentChar c := by
  rw [isDocumentChar_iff]
  unfold isNameChar at h
  split at h
  · next hascii =>
    have hle : ∀ d : Char, d ≤ c → d.toNat ≤ c.toNat := fun d hd => hd
    simp only [Bool.or_eq_true, Bool.and_eq_true, decide_eq_true_eq, beq_iff_eq] at h
    have hlow : 0x2D ≤ c.toNat := by
      rcases h with ((((⟨h, -⟩ | ⟨h, -⟩) | ⟨h, -⟩) | rfl) | rfl) | rfl
      · exact le_trans (by decide) (hle 'a' h)
      · exact le_trans (by decide) (hle 'A' h)
      · exact le_trans (by decide) (hle '0' h)
      all_goals decide
    omega
  · next hascii =>
    have hle : c.toNat ≤ 0xD7A3 := by
      rcases Bool.or_eq_true_iff.mp h with h | h
      · exact le_of_inRanges (by decide +kernel) h
      · exact le_of_inRanges (by decide +kernel) h
    omega

/-- The glyph of a character is the character or none. -/
theorem isDocumentChar_of_glyphOf {c d : Char} (h : glyphOf c = .char d) : IsDocumentChar d := by
  have hcd : c = d := by
    simp only [glyphOf] at h
    split at h
    · cases h
    · exact Glyph.char.inj h
  exact hcd ▸ (hcd ▸ h : glyphOf c = .char c)

theorem Legible.append {cs ds : List Glyph} (hcs : Legible cs) (hds : Legible ds) :
    Legible (cs ++ ds) := fun c hc => (List.mem_append.mp hc).elim (hcs c) (hds c)

theorem Legible.mono {cs ds : List Glyph} (h : Legible ds) (hsub : cs ⊆ ds) : Legible cs :=
  fun c hc => h c (hsub hc)

/-! ## Encoding and decoding -/

theorem toList_loop (bs : ByteArray) (i : Nat) (r : List UInt8) :
    ByteArray.toList.loop bs i r = r.reverse ++ bs.data.toList.drop i := by
  fun_induction ByteArray.toList.loop bs i r with
  | case1 i r hlt ih =>
    have hlt' : i < bs.data.toList.length := by simpa using hlt
    have hget : bs.get! i = bs.data.toList[i] := by
      simp [ByteArray.get!, getElem!_pos, hlt]
    rw [ih, List.drop_eq_getElem_cons hlt', hget]
    simp
  | case2 i r hge =>
    have : bs.data.toList.length ≤ i := by simpa using hge
    rw [List.drop_eq_nil_of_le this, List.append_nil]

theorem toList_toUTF8 (s : String) : s.toUTF8.toList = s.toList.flatMap String.utf8EncodeChar := by
  have hdata : s.toUTF8 = (s.toList.flatMap String.utf8EncodeChar).toByteArray := by
    conv_lhs => rw [← @String.ofList_toList s]
    exact String.toByteArray_ofList
  rw [hdata, ByteArray.toList, toList_loop, List.data_toByteArray]
  simp

/-- **Texts with the same bytes are equal.** -/
theorem toList_toUTF8_injective : Function.Injective fun s : String => s.toUTF8.toList := by
  intro s t h
  have hdata : s.toUTF8.data.toList = t.toUTF8.data.toList := by
    simpa [ByteArray.toList, toList_loop] using h
  exact String.toByteArray_inj.mp (ByteArray.ext (Array.toList_inj.mp hdata))

theorem toNat_byte {n : Nat} (h : n < 256) : (UInt8.ofNat n).toNat = n := by
  rw [UInt8.toNat_ofNat']; omega

theorem toNat_lt (c : Char) : c.toNat < 0x110000 := by
  have h := c.valid
  simp only [UInt32.isValidChar, Nat.isValidChar] at h
  show c.val.toNat < _
  omega

section Sequences

variable (acc : List Glyph) (rest : List UInt8) {a b c d : UInt8}

theorem isTail_of_toNat {b : UInt8} (h : 0x80 ≤ b.toNat ∧ b.toNat ≤ 0xBF) : isTail b = true := by
  rw [isTail, Bool.and_eq_true, decide_eq_true_eq, decide_eq_true_eq, UInt8.le_iff_toNat_le,
    UInt8.le_iff_toNat_le]
  exact h

theorem bne_or_of_toNat {a k b l : UInt8} (h : a.toNat = k.toNat → l.toNat ≤ b.toNat) :
    (a != k || decide (l ≤ b)) = true := by
  rw [Bool.or_eq_true, bne_iff_ne, decide_eq_true_eq, UInt8.le_iff_toNat_le, or_iff_not_imp_left,
    not_not]
  exact fun heq => h (congrArg UInt8.toNat heq)

theorem decodeUtf8_one (ha : a.toNat < 0x80) {e : Char}
    (he : glyphOf (Char.ofNat a.toNat) = .char e) :
    decodeUtf8 acc (a :: rest) = decodeUtf8 (.char e :: acc) rest := by
  have hone : a < 0x80 := UInt8.lt_iff_toNat_lt.mpr ha
  rw [decodeUtf8.eq_def]
  simp [hone, he]

theorem decodeUtf8_two (ha : 0xC2 ≤ a.toNat ∧ a.toNat ≤ 0xDF)
    (hb : 0x80 ≤ b.toNat ∧ b.toNat ≤ 0xBF) :
    decodeUtf8 acc (a :: b :: rest) =
      decodeUtf8 (.char (Char.ofNat (a.toNat % 32 * 64 + sixBits b)) :: acc) rest := by
  have hone : ¬ a < 0x80 := fun h => absurd (UInt8.lt_iff_toNat_lt.mp h) (by simp; omega)
  have hlow : 0xC0 ≤ a := UInt8.le_iff_toNat_le.mpr (by simp; omega)
  have hleast : 0xC2 ≤ a := UInt8.le_iff_toNat_le.mpr ha.1
  have hhigh : a ≤ 0xDF := UInt8.le_iff_toNat_le.mpr ha.2
  rw [decodeUtf8.eq_def]
  simp [hone, hlow, hleast, hhigh, isTail_of_toNat hb]

theorem decodeUtf8_three (ha : 0xE0 ≤ a.toNat ∧ a.toNat ≤ 0xEF)
    (hb : 0x80 ≤ b.toNat ∧ b.toNat ≤ 0xBF) (hc : 0x80 ≤ c.toNat ∧ c.toNat ≤ 0xBF)
    (hleast : a.toNat = 0xE0 → 0xA0 ≤ b.toNat) (hmost : a.toNat = 0xED → b.toNat ≤ 0x9F) {e : Char}
    (he : glyphOf (Char.ofNat (a.toNat % 16 * 4096 + sixBits b * 64 + sixBits c)) = .char e) :
    decodeUtf8 acc (a :: b :: c :: rest) = decodeUtf8 (.char e :: acc) rest := by
  have hone : ¬ a < 0x80 := fun h => absurd (UInt8.lt_iff_toNat_lt.mp h) (by simp; omega)
  have htwo : ¬ a ≤ 0xDF := fun h => absurd (UInt8.le_iff_toNat_le.mp h) (by simp; omega)
  have hlow : 0xE0 ≤ a := UInt8.le_iff_toNat_le.mpr ha.1
  have hhigh : a ≤ 0xEF := UInt8.le_iff_toNat_le.mpr ha.2
  have hpair : (a != 0xE0 || decide (0xA0 ≤ b)) = true := bne_or_of_toNat hleast
  have hpair' : (a != 0xED || decide (b ≤ 0x9F)) = true := bne_or_of_toNat hmost
  rw [decodeUtf8.eq_def]
  simp [hone, htwo, hlow, hhigh, isTail_of_toNat hb, isTail_of_toNat hc, hpair, hpair', he]

theorem decodeUtf8_four (ha : 0xF0 ≤ a.toNat ∧ a.toNat ≤ 0xF4)
    (hb : 0x80 ≤ b.toNat ∧ b.toNat ≤ 0xBF) (hc : 0x80 ≤ c.toNat ∧ c.toNat ≤ 0xBF)
    (hd : 0x80 ≤ d.toNat ∧ d.toNat ≤ 0xBF)
    (hleast : a.toNat = 0xF0 → 0x90 ≤ b.toNat) (hmost : a.toNat = 0xF4 → b.toNat ≤ 0x8F) :
    decodeUtf8 acc (a :: b :: c :: d :: rest) =
      decodeUtf8 (.char (Char.ofNat (a.toNat % 8 * 262144 + sixBits b * 4096 + sixBits c * 64 +
        sixBits d)) :: acc) rest := by
  have hone : ¬ a < 0x80 := fun h => absurd (UInt8.lt_iff_toNat_lt.mp h) (by simp; omega)
  have htwo : ¬ a ≤ 0xDF := fun h => absurd (UInt8.le_iff_toNat_le.mp h) (by simp; omega)
  have hthree : ¬ a ≤ 0xEF := fun h => absurd (UInt8.le_iff_toNat_le.mp h) (by simp; omega)
  have hlow : 0xF0 ≤ a := UInt8.le_iff_toNat_le.mpr ha.1
  have hhigh : a ≤ 0xF4 := UInt8.le_iff_toNat_le.mpr ha.2
  have hpair : (a != 0xF0 || decide (0x90 ≤ b)) = true := bne_or_of_toNat hleast
  have hpair' : (a != 0xF4 || decide (b ≤ 0x8F)) = true := bne_or_of_toNat hmost
  rw [decodeUtf8.eq_def]
  simp [hone, htwo, hthree, hlow, hhigh, isTail_of_toNat hb, isTail_of_toNat hc, isTail_of_toNat hd,
    hpair, hpair']

end Sequences

theorem not_surrogate (c : Char) : ¬ (0xD800 ≤ c.toNat ∧ c.toNat < 0xE000) := by
  have h := c.valid
  simp only [UInt32.isValidChar, Nat.isValidChar] at h
  show ¬ (0xD800 ≤ c.val.toNat ∧ c.val.toNat < 0xE000)
  omega

/-- **One character is decoded as it was encoded.** -/
theorem decodeUtf8_char {c : Char} (h : IsDocumentChar c) (acc : List Glyph) (rest : List UInt8) :
    decodeUtf8 acc (String.utf8EncodeChar c ++ rest) = decodeUtf8 (.char c :: acc) rest := by
  have hvalid : c.toNat < 0x110000 := toNat_lt c
  have hsurrogate := not_surrogate c
  have hc : ∀ n, n = c.toNat → Char.ofNat n = c := fun n hn => hn ▸ Char.ofNat_toNat c
  unfold String.utf8EncodeChar
  generalize hv : c.val.toNat = v
  have hv' : c.toNat = v := hv
  rw [hv'] at hc hvalid hsurrogate
  dsimp only
  split_ifs with h1 h2 h3
  · have ha : (UInt8.ofNat v).toNat = v := toNat_byte (by omega)
    rw [List.singleton_append]
    exact decodeUtf8_one _ _ (by omega) (by rw [ha, hc v rfl, h])
  · have ha : (UInt8.ofNat (v / 64 % 32 + 192)).toNat = v / 64 % 32 + 192 := toNat_byte (by omega)
    have hb : (UInt8.ofNat (v % 64 + 128)).toNat = v % 64 + 128 := toNat_byte (by omega)
    rw [List.cons_append, List.singleton_append, decodeUtf8_two _ _ (by omega) (by omega),
      sixBits, ha, hb, hc _ (by omega)]
  · have ha : (UInt8.ofNat (v / 4096 % 16 + 224)).toNat = v / 4096 % 16 + 224 :=
      toNat_byte (by omega)
    have hb : (UInt8.ofNat (v / 64 % 64 + 128)).toNat = v / 64 % 64 + 128 := toNat_byte (by omega)
    have hd : (UInt8.ofNat (v % 64 + 128)).toNat = v % 64 + 128 := toNat_byte (by omega)
    rw [List.cons_append, List.cons_append, List.singleton_append]
    refine decodeUtf8_three _ _ (by omega) (by omega) (by omega) (by omega) (by omega) ?_
    rw [sixBits, sixBits, ha, hb, hd, hc _ (by omega), h]
  · have ha : (UInt8.ofNat (v / 262144 % 8 + 240)).toNat = v / 262144 % 8 + 240 :=
      toNat_byte (by omega)
    have hb : (UInt8.ofNat (v / 4096 % 64 + 128)).toNat = v / 4096 % 64 + 128 :=
      toNat_byte (by omega)
    have hd : (UInt8.ofNat (v / 64 % 64 + 128)).toNat = v / 64 % 64 + 128 := toNat_byte (by omega)
    have he : (UInt8.ofNat (v % 64 + 128)).toNat = v % 64 + 128 := toNat_byte (by omega)
    rw [List.cons_append, List.cons_append, List.cons_append, List.singleton_append,
      decodeUtf8_four _ _ (by omega) (by omega) (by omega) (by omega) (by omega) (by omega),
        sixBits,
      sixBits, sixBits, ha, hb, hd, he, hc _ (by omega)]

/-- **A text that was encoded is decoded as it was.** -/
theorem decodeUtf8_toUTF8 {s : String} (h : IsDocumentText s) :
    decodeUtf8 [] s.toUTF8.toList = glyphs s.toList := by
  have hread : ∀ (cs : List Char) (acc : List Glyph), (∀ c ∈ cs, IsDocumentChar c) →
      decodeUtf8 acc (cs.flatMap String.utf8EncodeChar) = acc.reverse ++ glyphs cs := by
    intro cs
    induction cs with
    | nil => intro acc _; simp [decodeUtf8]
    | cons c cs ih =>
      intro acc hcs
      obtain ⟨hc, hrest⟩ := List.forall_mem_cons.mp hcs
      rw [List.flatMap_cons, decodeUtf8_char hc, ih _ hrest]
      simp
  rw [toList_toUTF8, hread _ _ h]
  rfl

/-! ## What decoding yields -/

/-- Code points of more than one byte may stand in a document, but for two. -/
theorem isDocumentChar_ofNat {n : Nat} (hvalid : n.isValidChar) (hlow : 0x80 ≤ n)
    (hnone : n ≠ 0xFFFE ∧ n ≠ 0xFFFF) : IsDocumentChar (Char.ofNat n) := by
  have hn : (Char.ofNat n).toNat = n := by
    rw [Char.ofNat, dif_pos hvalid]
    rfl
  rw [isDocumentChar_iff, hn]
  omega

theorem Legible.cons {acc : List Glyph} {c : Char} (hacc : Legible acc) (hc : IsDocumentChar c) :
    Legible (.char c :: acc) := by
  intro d hd
  rcases List.mem_cons.mp hd with heq | hd
  · exact Glyph.char.inj heq ▸ hc
  · exact hacc d hd

theorem Legible.reverse {acc : List Glyph} (hacc : Legible acc) : Legible acc.reverse :=
  fun c hc => hacc c (List.mem_reverse.mp hc)

/-- Where decoding stops, what it stops at is no character. -/
theorem Legible.stop {acc : List Glyph} (hacc : Legible acc) {g : Glyph} (hg : ∀ c, g ≠ .char c) :
    Legible (g :: acc).reverse := by
  refine Legible.reverse fun c hc => ?_
  rcases List.mem_cons.mp hc with heq | hc
  · exact absurd heq.symm (hg c)
  · exact hacc c hc

theorem toNat_of_isTail {b : UInt8} (h : isTail b = true) : 0x80 ≤ b.toNat ∧ b.toNat ≤ 0xBF := by
  simpa [isTail, UInt8.le_iff_toNat_le] using h

/-- Two bytes spell a character from 0x80 on. -/
theorem isDocumentChar_two {a b : UInt8} (ha : 0xC2 ≤ a) (ha' : a ≤ 0xDF) :
    IsDocumentChar (Char.ofNat (a.toNat % 32 * 64 + sixBits b)) := by
  have hlow : 0xC2 ≤ a.toNat := UInt8.le_iff_toNat_le.mp ha
  have hhigh : a.toNat ≤ 0xDF := UInt8.le_iff_toNat_le.mp ha'
  have hbits : sixBits b < 64 := Nat.mod_lt _ (by decide)
  exact isDocumentChar_ofNat (.inl (by omega)) (by omega) (by omega)

/-- Four bytes spell a character beyond the basic plane. -/
theorem isDocumentChar_four {a b c d : UInt8} (ha : 0xF0 ≤ a) (ha' : a ≤ 0xF4)
    (hb : isTail b = true) (hleast : (a != 0xF0 || decide (0x90 ≤ b)) = true)
    (hmost : (a != 0xF4 || decide (b ≤ 0x8F)) = true) :
    IsDocumentChar (Char.ofNat
      (a.toNat % 8 * 262144 + sixBits b * 4096 + sixBits c * 64 + sixBits d)) := by
  have hlow : 0xF0 ≤ a.toNat := UInt8.le_iff_toNat_le.mp ha
  have hhigh : a.toNat ≤ 0xF4 := UInt8.le_iff_toNat_le.mp ha'
  have hb' := toNat_of_isTail hb
  have hc : sixBits c < 64 := Nat.mod_lt _ (by decide)
  have hd : sixBits d < 64 := Nat.mod_lt _ (by decide)
  have hsix : sixBits b = b.toNat % 64 := rfl
  have hleast' : a.toNat = 0xF0 → 0x90 ≤ b.toNat := by
    intro heq
    obtain rfl : a = 0xF0 := UInt8.toNat_inj.mp heq
    simpa [UInt8.le_iff_toNat_le] using hleast
  have hmost' : a.toNat = 0xF4 → b.toNat ≤ 0x8F := by
    intro heq
    obtain rfl : a = 0xF4 := UInt8.toNat_inj.mp heq
    simpa [UInt8.le_iff_toNat_le] using hmost
  exact isDocumentChar_ofNat (.inr ⟨by omega, by omega⟩) (by omega) (by omega)

theorem legible_decodeUtf8 {acc : List Glyph} (bytes : List UInt8) (hacc : Legible acc) :
    Legible (decodeUtf8 acc bytes) := by
  fun_induction decodeUtf8 acc bytes with
  | case1 acc => exact hacc.reverse
  | case2 acc a rest _ c hglyph ih => exact ih (hacc.cons (isDocumentChar_of_glyphOf hglyph))
  | case3 acc a rest _ hglyph => exact hacc.stop hglyph
  | case4 acc a _ hlead b rest hpair ih =>
    simp only [Bool.and_eq_true, decide_eq_true_eq] at hlead hpair
    exact ih (hacc.cons (isDocumentChar_two hpair.1 hlead.2))
  | case7 acc a _ _ _ b c rest _ d hglyph ih =>
    exact ih (hacc.cons (isDocumentChar_of_glyphOf hglyph))
  | case8 acc a _ _ _ b c rest _ hglyph => exact hacc.stop hglyph
  | case11 acc a _ _ _ hlead b c d rest htails ih =>
    simp only [Bool.and_eq_true] at htails
    simp only [Bool.and_eq_true, decide_eq_true_eq] at hlead
    exact ih (hacc.cons (isDocumentChar_four hlead.1 hlead.2 htails.1.1.1.1 htails.1.2 htails.2))
  | _ => exact hacc.stop nofun

/-- Two halves spell a character beyond the basic plane. -/
theorem isDocumentChar_pair (m n : Nat) :
    IsDocumentChar (Char.ofNat (0x10000 + m % 1024 * 1024 + n % 1024)) :=
  isDocumentChar_ofNat (.inr ⟨by omega, by omega⟩) (by omega) (by omega)

theorem legible_decodeUtf16 (littleEndian : Bool) {acc : List Glyph} (bytes : List UInt8)
    (hacc : Legible acc) : Legible (decodeUtf16 littleEndian acc bytes).1 := by
  fun_induction decodeUtf16 littleEndian acc bytes with
  | case1 acc => exact hacc.reverse
  | case2 acc => exact hacc.reverse
  | case3 acc a b n _ c d rest ih => exact ih (hacc.cons (isDocumentChar_pair _ _))
  | case4 acc a b rest n _ _ => exact hacc.stop nofun
  | case5 acc a b rest n _ _ => exact hacc.stop nofun
  | case6 acc a b rest n _ _ c hglyph ih => exact ih (hacc.cons (isDocumentChar_of_glyphOf hglyph))
  | case7 acc a b rest n _ _ hglyph => exact hacc.stop hglyph

theorem legible_decodeBytes {glyph : UInt8 → Glyph}
    (hglyph : ∀ a c, glyph a = .char c → IsDocumentChar c) {acc : List Glyph}
    (bytes : List UInt8) (hacc : Legible acc) : Legible (decodeBytes glyph acc bytes) := by
  fun_induction decodeBytes glyph acc bytes with
  | case1 acc => exact hacc.reverse
  | case2 acc a rest c hchar ih => exact ih (hacc.cons (hglyph a c hchar))
  | case3 acc a rest hstop => exact hacc.stop hstop

/-- A map that has ASCII below 0x80 has no other characters than may stand in a document, if it has
none above. -/
theorem isDocumentChar_of_aboveAscii {upper : UInt8 → Glyph}
    (hupper : ∀ a c, 0x80 ≤ a → upper a = .char c → IsDocumentChar c) {a : UInt8} {c : Char}
    (h : aboveAscii upper a = .char c) : IsDocumentChar c := by
  rw [aboveAscii] at h
  split at h
  · exact isDocumentChar_of_glyphOf h
  · next hascii => exact hupper a c (UInt8.not_lt.mp hascii) h

theorem isDocumentChar_of_asciiGlyph {a : UInt8} {c : Char} (h : asciiGlyph a = .char c) :
    IsDocumentChar c :=
  isDocumentChar_of_aboveAscii (fun _ _ _ hupper => Glyph.noConfusion hupper) h

/-- **What is decoded may stand in a document**, in every encoding. -/
theorem legible_decode (e : Encoding) (bytes : List UInt8) : Legible (e.decode bytes).1 := by
  have hnil : Legible [] := fun c hc => absurd hc List.not_mem_nil
  cases e with
  | utf8 => exact legible_decodeUtf8 bytes hnil
  | utf16 littleEndian => exact legible_decodeUtf16 littleEndian bytes hnil
  | ascii => exact legible_decodeBytes (fun _ _ => isDocumentChar_of_asciiGlyph) bytes hnil
  | asciiWithoutTilde =>
    refine legible_decodeBytes (fun a c h => ?_) bytes hnil
    split at h
    · cases h
    · exact isDocumentChar_of_asciiGlyph h
  | latin1 =>
    refine legible_decodeBytes (fun a c => isDocumentChar_of_aboveAscii fun a c ha h =>
      ?_) bytes hnil
    have hlow : 0x80 ≤ a.toNat := UInt8.le_iff_toNat_le.mp ha
    have hhigh := a.toNat_lt
    exact Glyph.char.inj h ▸ isDocumentChar_ofNat (.inl (by omega)) hlow (by omega)
  | page upperHalf =>
    refine legible_decodeBytes (fun a c => isDocumentChar_of_aboveAscii fun a c _ h =>
      ?_) bytes hnil
    split at h
    · split at h
      · cases h
      · exact isDocumentChar_of_glyphOf h
    · cases h

end StationNaming.Xml
