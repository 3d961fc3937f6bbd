import FirmwareBuild.Disk
import FirmwareBuild.Proofs.TextCuts

/-! # Reading back what was written as UTF-8

The reader of `Utf8` stands between two characters whenever a whole character was
read, so that the octets of a text give back the text, whatever follows them. An
ASCII octet always ends what stands before it: a broken sequence in front of a
separator spoils the entry in front of it and nothing behind it. Octets that are read
as a text are the only ones that it is written as. -/

namespace FirmwareBuild.Utf8

/-! ## Whole characters -/

/-- An octet that a character goes on with, where more are to come. -/
theorem scanFrom_inside_succ {more value low high : Nat} {b : UInt8} {bs : Bytes}
    (h : low ≤ b.toNat ∧ b.toNat ≤ high) :
    scanFrom (.inside (more + 1) value low high) (b :: bs) =
      scanFrom (.inside more (value * 64 + (b.toNat - 0x80)) 0x80 0xBF) bs := by
  simp [scanFrom, step, h]

/-- The last octet of a character. -/
theorem scanFrom_inside_zero {value low high : Nat} {b : UInt8} {bs : Bytes}
    (h : low ≤ b.toNat ∧ b.toNat ≤ high) :
    scanFrom (.inside 0 value low high) (b :: bs) =
      some (Char.ofNat (value * 64 + (b.toNat - 0x80))) :: scanFrom .start bs := by
  simp [scanFrom, step, h]

theorem scanFrom_lead_two {b : UInt8} {bs : Bytes} (h : 0xC2 ≤ b.toNat ∧ b.toNat < 0xE0) :
    scanFrom .start (b :: bs) = scanFrom (.inside 0 (b.toNat - 0xC0) 0x80 0xBF) bs := by
  simp only [scanFrom, step, lead]
  rw [if_neg (by omega), if_neg (by omega), if_pos h.2]
  rfl

theorem scanFrom_lead_three {b : UInt8} {bs : Bytes} (h : 0xE0 ≤ b.toNat ∧ b.toNat < 0xF0) :
    scanFrom .start (b :: bs) = scanFrom (.inside 1 (b.toNat - 0xE0)
      (if b.toNat = 0xE0 then 0xA0 else 0x80) (if b.toNat = 0xED then 0x9F else 0xBF)) bs := by
  simp only [scanFrom, step, lead]
  rw [if_neg (by omega), if_neg (by omega), if_neg (by omega), if_pos h.2]
  rfl

theorem scanFrom_lead_four {b : UInt8} {bs : Bytes} (h : 0xF0 ≤ b.toNat ∧ b.toNat < 0xF5) :
    scanFrom .start (b :: bs) = scanFrom (.inside 2 (b.toNat - 0xF0)
      (if b.toNat = 0xF0 then 0x90 else 0x80) (if b.toNat = 0xF4 then 0x8F else 0xBF)) bs := by
  simp only [scanFrom, step, lead]
  rw [if_neg (by omega), if_neg (by omega), if_neg (by omega), if_neg (by omega), if_pos h.2]
  rfl

/-- A character that is written is read, and the reader stands behind it. -/
theorem scanFrom_encodeChar_append (c : Char) (bs : Bytes) :
    scanFrom .start (encodeChar c ++ bs) = some c :: scanFrom .start bs := by
  have hc : Char.ofNat c.val.toNat = c := Char.ofNat_toNat c
  have hv : c.val.toNat < 0xD800 ∨ 0xDFFF < c.val.toNat ∧ c.val.toNat < 0x110000 := c.valid
  simp only [encodeChar, String.utf8EncodeChar]
  generalize c.val.toNat = v at hc hv
  -- one case for each number of octets; in each the digits to base 64 give the number again
  by_cases h1 : v ≤ 0x7F
  · have e0 : (UInt8.ofNat v).toNat = v := by simp; omega
    rw [if_pos h1]
    simp only [List.cons_append, List.nil_append, scanFrom, step, e0, lead]
    rw [if_pos (by omega), hc]
    rfl
  have last : (UInt8.ofNat (v % 0x40 + 0x80)).toNat = v % 64 + 0x80 := by simp; omega
  rw [if_neg h1]
  by_cases h2 : v ≤ 0x7FF
  · have e0 : (UInt8.ofNat (v / 64 % 0x20 + 0xC0)).toNat = v / 64 + 0xC0 := by simp; omega
    rw [if_pos h2]
    simp only [List.cons_append, List.nil_append]
    rw [scanFrom_lead_two (by omega), scanFrom_inside_zero (by omega), last, e0]
    rw [show (v / 64 + 0xC0 - 0xC0) * 64 + (v % 64 + 0x80 - 0x80) = v by omega, hc]
  have middle : (UInt8.ofNat (v / 64 % 0x40 + 0x80)).toNat = v / 64 % 64 + 0x80 := by simp; omega
  rw [if_neg h2]
  by_cases h3 : v ≤ 0xFFFF
  · have e0 : (UInt8.ofNat (v / 4096 % 0x10 + 0xE0)).toNat = v / 4096 + 0xE0 := by simp; omega
    rw [if_pos h3]
    simp only [List.cons_append, List.nil_append]
    rw [scanFrom_lead_three (by omega), scanFrom_inside_succ (by split <;> split <;> omega),
      scanFrom_inside_zero (by omega), last, middle, e0]
    rw [show ((v / 4096 + 0xE0 - 0xE0) * 64 + (v / 64 % 64 + 0x80 - 0x80)) * 64 +
      (v % 64 + 0x80 - 0x80) = v by omega, hc]
  · have e0 : (UInt8.ofNat (v / 262144 % 0x8 + 0xF0)).toNat = v / 262144 + 0xF0 := by
      simp; omega
    have e1 : (UInt8.ofNat (v / 4096 % 0x40 + 0x80)).toNat = v / 4096 % 64 + 0x80 := by
      simp; omega
    rw [if_neg h3]
    simp only [List.cons_append, List.nil_append]
    rw [scanFrom_lead_four (by omega), scanFrom_inside_succ (by split <;> split <;> omega),
      scanFrom_inside_succ (by omega), scanFrom_inside_zero (by omega), last, middle, e1, e0]
    rw [show (((v / 262144 + 0xF0 - 0xF0) * 64 + (v / 4096 % 64 + 0x80 - 0x80)) * 64 +
      (v / 64 % 64 + 0x80 - 0x80)) * 64 + (v % 64 + 0x80 - 0x80) = v by omega, hc]

/-! ## Whole texts -/

theorem encode_append (t u : Text) : encode (t ++ u) = encode t ++ encode u := by
  simp [encode]

theorem scanFrom_encode_append (t : Text) (bs : Bytes) :
    scanFrom .start (encode t ++ bs) = t.map some ++ scanFrom .start bs := by
  induction t with
  | nil => rfl
  | cons c t ih =>
    rw [show encode (c :: t) = encodeChar c ++ encode t from rfl, List.append_assoc,
      scanFrom_encodeChar_append, ih]
    rfl

theorem scan_encode (t : Text) : scan (encode t) = t.map some := by
  have h := scanFrom_encode_append t []
  simpa [scan, scanFrom] using h

@[simp] theorem decodeLossy_encode (t : Text) : decodeLossy (encode t) = t := by
  simp [decodeLossy, scan_encode, Function.comp_def]

theorem isText_encode (t : Text) : isText (encode t) = true := by
  simp [isText, scan_encode]

/-- A text is read back as it was written. -/
@[simp] theorem decode?_encode (t : Text) : decode? (encode t) = some t := by
  simp [decode?, isText_encode]

theorem encode_injective {t u : Text} (h : encode t = encode u) : t = u := by
  have hd := congrArg decodeLossy h
  simpa using hd

@[simp] theorem encode_inj {t u : Text} : encode t = encode u ↔ t = u :=
  ⟨encode_injective, congrArg encode⟩

/-! ## Broken sequences in front of ASCII -/

/-- A state in which no ASCII octet goes on with the character that was begun. -/
def State.Closed : State → Prop
  | .start => True
  | .inside _ _ low _ => 0x80 ≤ low

theorem lead_closed (b : Nat) : (lead b).2.Closed := by
  unfold lead
  repeat' split
  all_goals simp only [State.Closed]; try omega

theorem step_closed (s : State) (b : Nat) : (step s b).2.Closed := by
  unfold step
  split
  · exact lead_closed b
  · split
    · split
      · exact trivial
      · exact Nat.le_refl _
    · exact lead_closed b

/-- What stands in front of an ASCII octet is read as if nothing came behind it. -/
theorem scanFrom_append_ascii {s : State} (hs : s.Closed) (front : Bytes) {b : UInt8}
    (hb : b.toNat < 0x80) (bs : Bytes) :
    scanFrom s (front ++ b :: bs) =
      scanFrom s front ++ some (Char.ofNat b.toNat) :: scanFrom .start bs := by
  have hlead : lead b.toNat = ([some (Char.ofNat b.toNat)], .start) := by simp [lead, hb]
  induction front generalizing s with
  | nil =>
    cases s with
    | start => simp [scanFrom, step, hlead]
    | inside more value low high =>
      have hlow : ¬(low ≤ b.toNat ∧ b.toNat ≤ high) := by simp only [State.Closed] at hs; omega
      simp [scanFrom, step, hlead, hlow]
  | cons a front ih =>
    simp only [List.cons_append, scanFrom, List.append_assoc]
    rw [ih (step_closed s a.toNat)]

/-- An ASCII octet cuts what is read as a text in two. -/
theorem isText_append_ascii (front : Bytes) {b : UInt8} (hb : b.toNat < 0x80) (bs : Bytes) :
    isText (front ++ b :: bs) = (isText front && isText bs) := by
  have hscan : scan (front ++ b :: bs) = scan front ++ some (Char.ofNat b.toNat) :: scan bs :=
    scanFrom_append_ascii (s := .start) trivial front hb bs
  rw [isText, hscan, List.all_append, List.all_cons, Option.isSome_some, Bool.true_and, isText,
    isText]

/-- Octets of ASCII at the end do not count. -/
theorem isText_append_of_ascii (front : Bytes) {tail : Bytes} (h : ∀ b ∈ tail, b.toNat < 0x80) :
    isText (front ++ tail) = isText front := by
  induction tail generalizing front with
  | nil => rw [List.append_nil]
  | cons b rest ih =>
    have hrest := ih [] fun c hc => h c (List.mem_cons_of_mem _ hc)
    rw [List.nil_append] at hrest
    rw [isText_append_ascii front (h b List.mem_cons_self), hrest]
    exact Bool.and_true _

theorem encodeChar_ascii {c : Char} (hc : c.toNat < 0x80) :
    encodeChar c = [UInt8.ofNat c.toNat] := by
  simp only [encodeChar, String.utf8EncodeChar]
  exact if_pos (Nat.le_of_lt_succ hc)

/-- The octets of a character that is not ASCII are none of ASCII. -/
theorem le_of_mem_encodeChar {c : Char} (hc : 0x80 ≤ c.toNat) {b : UInt8}
    (hb : b ∈ encodeChar c) : 0x80 ≤ b.toNat := by
  have hv : 0x80 ≤ c.val.toNat := hc
  simp only [encodeChar, String.utf8EncodeChar] at hb
  generalize c.val.toNat = v at hb hv
  have hoctet (n k : Nat) (hk : 0x80 ≤ k) (hn : n + k < 0x100) :
      0x80 ≤ (UInt8.ofNat (n + k)).toNat := by
    rw [UInt8.toNat_ofNat']
    omega
  rw [if_neg (by omega)] at hb
  split at hb
  · simp only [List.mem_cons, List.not_mem_nil, or_false] at hb
    rcases hb with rfl | rfl <;> exact hoctet _ _ (by decide) (by omega)
  split at hb
  · simp only [List.mem_cons, List.not_mem_nil, or_false] at hb
    rcases hb with rfl | rfl | rfl <;> exact hoctet _ _ (by decide) (by omega)
  · simp only [List.mem_cons, List.not_mem_nil, or_false] at hb
    rcases hb with rfl | rfl | rfl | rfl <;> exact hoctet _ _ (by decide) (by omega)

/-- An octet of ASCII is all that there is of its character. -/
theorem toNat_of_mem_encodeChar {c : Char} {b : UInt8} (hb : b.toNat < 0x80)
    (h : b ∈ encodeChar c) : b.toNat = c.toNat := by
  by_cases hc : c.toNat < 0x80
  · rw [encodeChar_ascii hc, List.mem_singleton] at h
    rw [h, UInt8.toNat_ofNat']
    omega
  · have hle := le_of_mem_encodeChar (Nat.le_of_not_lt hc) h
    omega

/-- A separator cuts a lossy reading in two. -/
theorem decodeLossy_append_ascii (front : Bytes) {c : Char} (hc : c.toNat < 0x80) (t : Text) :
    decodeLossy (front ++ encode (c :: t)) = decodeLossy front ++ c :: t := by
  have he := encodeChar_ascii hc
  have hn : (UInt8.ofNat c.toNat).toNat = c.toNat := by simp; omega
  have hs := scanFrom_append_ascii (s := .start) trivial front (b := UInt8.ofNat c.toNat)
    (by omega) (encode t)
  rw [hn, Char.ofNat_toNat] at hs
  have ht : scanFrom .start (encode t) = t.map some := scan_encode t
  simp only [decodeLossy, scan, encode, List.flatMap_cons, he, List.cons_append, List.nil_append]
  rw [← encode, hs, ht]
  simp [Function.comp_def]

theorem encodeChar_length_pos (c : Char) : 0 < (encodeChar c).length := by
  rw [encodeChar, String.length_utf8EncodeChar]
  exact c.utf8Size_pos

/-- Cutting an ASCII character off the end of a text cuts its octet off. -/
theorem encode_dropEnd {d : Char} (hd : d.toNat < 0x80) (t : Text) :
    encode (Text.dropEnd (· == d) t) =
      Text.dropEnd (· == UInt8.ofNat d.toNat) (encode t) := by
  have hoctet : (UInt8.ofNat d.toNat).toNat = d.toNat := by
    rw [UInt8.toNat_ofNat']
    omega
  -- by induction from the end of the text, where the cutting begins
  obtain ⟨r, rfl⟩ : ∃ r : Text, t = r.reverse := ⟨t.reverse, by simp⟩
  induction r with
  | nil => rfl
  | cons c r ih =>
    have hone (c : Char) : encode [c] = encodeChar c := by simp [encode]
    rw [List.reverse_cons, Text.dropEnd_concat, encode_append]
    by_cases hc : c = d
    · subst hc
      rw [if_pos (beq_self_eq_true c), ih, hone, encodeChar_ascii hd, Text.dropEnd_concat,
        if_pos (beq_self_eq_true _)]
    · have hne : encodeChar c ≠ [] := List.ne_nil_of_length_pos (encodeChar_length_pos c)
      have hlast : ((encodeChar c).getLast hne == UInt8.ofNat d.toNat) = false := by
        refine beq_false_of_ne fun he => hc ?_
        have hmem : UInt8.ofNat d.toNat ∈ encodeChar c := he ▸ List.getLast_mem hne
        have hn := toNat_of_mem_encodeChar (by omega) hmem
        rw [← Char.ofNat_toNat c, ← hn, hoctet, Char.ofNat_toNat]
      rw [if_neg (by simpa using hc), encode_append, hone, Text.dropEnd_append hne hlast]

/-! ## Octets that are text -/

theorem val_ofNat {v : Nat} (hv : v.isValidChar) : (Char.ofNat v).val.toNat = v := by
  rw [Char.ofNat, dif_pos hv]
  rfl

theorem ofNat_eq {n : Nat} {b : UInt8} (h : n = b.toNat) : UInt8.ofNat n = b := by
  rw [h, UInt8.ofNat_toNat]

/-- Inside a character of a text comes an octet that goes on with it. -/
theorem inside_of_isText {more value low high : Nat} {bs : Bytes}
    (h : (scanFrom (.inside more value low high) bs).all Option.isSome = true) :
    ∃ b rest, bs = b :: rest ∧ low ≤ b.toNat ∧ b.toNat ≤ high := by
  cases bs with
  | nil => simp [scanFrom] at h
  | cons b rest =>
    refine ⟨b, rest, rfl, ?_⟩
    by_cases hin : low ≤ b.toNat ∧ b.toNat ≤ high
    · exact hin
    · simp [scanFrom, step, hin] at h

/-- The first octets of a text are those of a character. -/
theorem begins_of_isText {b : UInt8} {bs : Bytes}
    (h : (scanFrom .start (b :: bs)).all Option.isSome = true) :
    ∃ c rest, b :: bs = encodeChar c ++ rest := by
  have hb := b.toNat_lt
  simp only [encodeChar, String.utf8EncodeChar]
  -- one case for each number of octets; in each the octets are the digits of the character
  rcases Nat.lt_or_ge b.toNat 0x80 with h1 | h1
  · refine ⟨Char.ofNat b.toNat, bs, ?_⟩
    rw [val_ofNat (.inl (by omega)), if_pos (by omega), ofNat_eq rfl]
    rfl
  rcases Nat.lt_or_ge b.toNat 0xC2 with h2 | h2
  · have hgap : lead b.toNat = ([none], .start) := by
      rw [lead, if_neg (by omega), if_pos h2]
    simp [scanFrom, step, hgap] at h
  rcases Nat.lt_or_ge b.toNat 0xE0 with h3 | h3
  · rw [scanFrom_lead_two ⟨h2, h3⟩] at h
    obtain ⟨b1, rest, rfl, hl1, hh1⟩ := inside_of_isText h
    refine ⟨Char.ofNat ((b.toNat - 0xC0) * 64 + (b1.toNat - 0x80)), rest, ?_⟩
    rw [val_ofNat (.inl (by omega)), if_neg (by omega), if_pos (by omega),
      ofNat_eq (b := b) (by omega), ofNat_eq (b := b1) (by omega)]
    rfl
  rcases Nat.lt_or_ge b.toNat 0xF0 with h4 | h4
  · rw [scanFrom_lead_three ⟨h3, h4⟩] at h
    obtain ⟨b1, rest, rfl, hl1, hh1⟩ := inside_of_isText h
    rw [scanFrom_inside_succ ⟨hl1, hh1⟩] at h
    obtain ⟨b2, rest, rfl, hl2, hh2⟩ := inside_of_isText h
    have hl : 0x80 ≤ b1.toNat ∧ (b.toNat = 0xE0 → 0xA0 ≤ b1.toNat) := by
      split at hl1 <;> omega
    have hh : b1.toNat ≤ 0xBF ∧ (b.toNat = 0xED → b1.toNat ≤ 0x9F) := by
      split at hh1 <;> omega
    clear h hl1 hh1
    refine ⟨Char.ofNat (((b.toNat - 0xE0) * 64 + (b1.toNat - 0x80)) * 64 + (b2.toNat - 0x80)),
      rest, ?_⟩
    have hv : Nat.isValidChar
        (((b.toNat - 0xE0) * 64 + (b1.toNat - 0x80)) * 64 + (b2.toNat - 0x80)) := by
      unfold Nat.isValidChar
      omega
    rw [val_ofNat hv, if_neg (by omega), if_neg (by omega), if_pos (by omega),
      ofNat_eq (b := b) (by omega), ofNat_eq (b := b1) (by omega), ofNat_eq (b := b2) (by omega)]
    rfl
  rcases Nat.lt_or_ge b.toNat 0xF5 with h5 | h5
  · rw [scanFrom_lead_four ⟨h4, h5⟩] at h
    obtain ⟨b1, rest, rfl, hl1, hh1⟩ := inside_of_isText h
    rw [scanFrom_inside_succ ⟨hl1, hh1⟩] at h
    obtain ⟨b2, rest, rfl, hl2, hh2⟩ := inside_of_isText h
    rw [scanFrom_inside_succ ⟨hl2, hh2⟩] at h
    obtain ⟨b3, rest, rfl, hl3, hh3⟩ := inside_of_isText h
    have hl : 0x80 ≤ b1.toNat ∧ (b.toNat = 0xF0 → 0x90 ≤ b1.toNat) := by
      split at hl1 <;> omega
    have hh : b1.toNat ≤ 0xBF ∧ (b.toNat = 0xF4 → b1.toNat ≤ 0x8F) := by
      split at hh1 <;> omega
    clear h hl1 hh1
    refine ⟨Char.ofNat ((((b.toNat - 0xF0) * 64 + (b1.toNat - 0x80)) * 64 +
      (b2.toNat - 0x80)) * 64 + (b3.toNat - 0x80)), rest, ?_⟩
    have hv : Nat.isValidChar ((((b.toNat - 0xF0) * 64 + (b1.toNat - 0x80)) * 64 +
        (b2.toNat - 0x80)) * 64 + (b3.toNat - 0x80)) := by
      unfold Nat.isValidChar
      omega
    rw [val_ofNat hv, if_neg (by omega), if_neg (by omega), if_neg (by omega),
      ofNat_eq (b := b) (by omega), ofNat_eq (b := b1) (by omega), ofNat_eq (b := b2) (by omega),
      ofNat_eq (b := b3) (by omega)]
    rfl
  · have hgap : lead b.toNat = ([none], .start) := by
      rw [lead, if_neg (by omega), if_neg (by omega), if_neg (by omega), if_neg (by omega),
        if_neg (by omega)]
    simp [scanFrom, step, hgap] at h

/-- **Octets that are read as a text are those that it is written as.** -/
theorem encode_of_isText {bs : Bytes} (h : isText bs = true) : encode (decodeLossy bs) = bs := by
  cases bs with
  | nil => rfl
  | cons b bs =>
    obtain ⟨c, rest, hc⟩ := begins_of_isText h
    have hscan : scan (b :: bs) = some c :: scan rest := by
      rw [hc]
      exact scanFrom_encodeChar_append c rest
    have hrest : isText rest = true := by
      rw [isText, hscan, List.all_cons, Bool.and_eq_true] at h
      exact h.2
    have hlength : rest.length < (b :: bs).length := by
      rw [hc, List.length_append]
      have hpos := encodeChar_length_pos c
      omega
    have ih := encode_of_isText hrest
    rw [decodeLossy] at ih ⊢
    rw [hscan, List.map_cons, Option.getD_some, hc]
    exact congrArg (encodeChar c ++ ·) ih
termination_by bs.length

theorem decode?_eq_some {bs : Bytes} {t : Text} : decode? bs = some t ↔ encode t = bs := by
  constructor
  · intro h
    rw [decode?] at h
    split at h
    · rename_i htext
      rw [← Option.some.inj h]
      exact encode_of_isText htext
    · cases h
  · rintro rfl
    exact decode?_encode t

end FirmwareBuild.Utf8

/-- A file that holds the octets of a text is read as the text. -/
theorem FirmwareBuild.Disk.readText_of_read {disk : Disk} {path : Bytes} {text : Text}
    (h : disk.read path = .ok (Utf8.encode text)) : disk.readText path = .ok text := by
  rw [Disk.readText, h]
  simp [bind, Except.bind]
