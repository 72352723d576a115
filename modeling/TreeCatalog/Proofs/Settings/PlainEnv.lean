import Mathlib
import TreeCatalog.Settings.Dotenv
import TreeCatalog.Proofs.Text.Utf8
import TreeCatalog.Proofs.Text.Split

/-! # Reading plain environment files

A plain environment file is one whose lines are each blank, a comment (a `#` after blanks), or an
assignment that starts with a plain key (ASCII letters, digits, `_` and `.`) directly followed by
`=` and a value that is not quoted and refers to no variable (`PlainLine`). Such a file is read
line by line: blank and comment lines are passed over, and each assignment line gives its key and
the value cut from the text after `=` (`valueText`), so the reader's assignments, newest first, are
those of the assignment lines in reverse order (`read_plain`).

The reader works on bytes while the lines are text; the bytes of a text are the UTF-8 sequences of
its characters, so an ASCII byte such as a line break, `=` or `$` stands in them only as that
character (`mem_encode_ascii`), and reading characters or dropping them from the front of such
bytes goes one character at a time (`decodeChars_encode_append`, `dropCharsWhile_encode_append`). -/

namespace TreeCatalog

namespace Text.Utf8

section Prefixes

/-- The bytes of some characters. -/
abbrev bytesOf (cs : List Char) : List UInt8 := cs.flatMap String.utf8EncodeChar

theorem bytesOf_cons (c : Char) (cs : List Char) :
    bytesOf (c :: cs) = String.utf8EncodeChar c ++ bytesOf cs := List.flatMap_cons

theorem bytesOf_append (cs ds : List Char) : bytesOf (cs ++ ds) = bytesOf cs ++ bytesOf ds :=
  List.flatMap_append

/-- Reading the bytes of some characters and then more bytes reads those characters first. -/
theorem decodeChars_encode_append (cs : List Char) (more : List UInt8) :
    decodeChars (bytesOf cs ++ more) = cs ++ decodeChars more := by
  induction cs with
  | nil => simp
  | cons c cs ih =>
    obtain ⟨b0, bs, hc⟩ := List.exists_cons_of_ne_nil (String.utf8EncodeChar_ne_nil (c := c))
    rw [bytesOf_cons, hc, List.append_assoc, List.cons_append, decodeChars,
      scalar?_utf8EncodeChar hc]
    simp only [List.drop_left, ih, List.cons_append]

theorem dropCharsWhile_encode_cons (p : Char → Bool) (c : Char) (cs : List Char)
    (more : List UInt8) :
    dropCharsWhile p (bytesOf (c :: cs) ++ more) =
      if p c then dropCharsWhile p (bytesOf cs ++ more) else bytesOf (c :: cs) ++ more := by
  obtain ⟨b0, bs, hc⟩ := List.exists_cons_of_ne_nil (String.utf8EncodeChar_ne_nil (c := c))
  rw [bytesOf_cons, hc, List.append_assoc, List.cons_append, dropCharsWhile,
    scalar?_utf8EncodeChar hc]
  simp only [List.drop_left]

/-- Dropping leading characters from the bytes of some characters drops them one by one, and
goes on into the bytes after when all of them go. -/
theorem dropCharsWhile_encode_append (p : Char → Bool) (cs : List Char) (more : List UInt8) :
    dropCharsWhile p (bytesOf cs ++ more) =
      if cs.all p then dropCharsWhile p more else bytesOf (cs.dropWhile p) ++ more := by
  induction cs with
  | nil => simp
  | cons c cs ih =>
    rw [dropCharsWhile_encode_cons]
    by_cases hc : p c <;> simp [hc, ih]

/-- An ASCII byte stands in the bytes of some characters only as the character it codes. -/
theorem mem_encode_ascii {cs : List Char} {b : UInt8} (hb : b ∈ bytesOf cs)
    (hlt : b.toNat < 0x80) : Char.ofNat b.toNat ∈ cs := by
  obtain ⟨c, hc, hbc⟩ := List.mem_flatMap.mp hb
  by_cases hhigh : 0x80 ≤ c.toNat
  · exact absurd (high_of_mem_utf8EncodeChar hhigh hbc) (by omega)
  · rw [utf8EncodeChar_one (by omega), List.mem_singleton] at hbc
    subst hbc
    rwa [toNat_ofNat_lt (by omega), Char.ofNat_toNat]

theorem not_mem_encode_ascii {cs : List Char} {b : UInt8} (hlt : b.toNat < 0x80)
    (hc : Char.ofNat b.toNat ∉ cs) : b ∉ bytesOf cs :=
  fun hb => hc (mem_encode_ascii hb hlt)

theorem ne_of_mem_encode {cs : List Char} {b : UInt8} (hlt : b.toNat < 0x80)
    (hc : Char.ofNat b.toNat ∉ cs) : ∀ x ∈ bytesOf cs, x ≠ b :=
  fun _ hx h => not_mem_encode_ascii hlt hc (h ▸ hx)

/-- The first byte of the bytes of some characters, when it is ASCII, is their first character. -/
theorem head_encode_ascii {cs : List Char} {more rest : List UInt8} {q : UInt8}
    (h : bytesOf cs ++ more = q :: rest) (hq : q.toNat < 0x80) :
    cs = [] ∨ cs.head? = some (Char.ofNat q.toNat) := by
  cases cs with
  | nil => exact .inl rfl
  | cons c cs =>
    right
    obtain ⟨b0, bs, hc⟩ := List.exists_cons_of_ne_nil (String.utf8EncodeChar_ne_nil (c := c))
    rw [bytesOf_cons, hc, List.cons_append, List.cons_append, List.cons.injEq] at h
    have hmem : q ∈ bytesOf [c] := by simp [hc, h.1]
    simpa [eq_comm] using mem_encode_ascii hmem hq

theorem length_dropCharsWhile_le (p : Char → Bool) (bs : List UInt8) :
    (dropCharsWhile p bs).length ≤ bs.length := by
  fun_induction dropCharsWhile p bs <;> simp_all <;> omega

end Prefixes

end Text.Utf8

namespace Settings.Dotenv

open Text.Utf8 (bytesOf decodeChars dropCharsWhile)

/-- A character of a plain key: an ASCII letter or digit, `_` or `.`. -/
def isKeyChar (c : Char) : Bool := c.isAlphanum || c == '_' || c == '.'

section Keys

theorem toNat_lt_of_val_le {c z : Char} (h : c.val ≤ z.val) (hz : z.toNat < 0x80) :
    c.toNat < 0x80 :=
  lt_of_le_of_lt (UInt32.le_iff_toNat_le.mp h) hz

theorem toNat_lt_of_isKeyChar {c : Char} (h : isKeyChar c = true) : c.toNat < 0x80 := by
  simp only [isKeyChar, Char.isAlphanum, Char.isAlpha, Char.isUpper, Char.isLower, Char.isDigit,
    Bool.or_eq_true, beq_iff_eq, decide_eq_true_eq, Bool.and_eq_true] at h
  rcases h with (((hu | hl) | hd) | rfl) | rfl
  · exact toNat_lt_of_val_le hu.2 (by decide)
  · exact toNat_lt_of_val_le hl.2 (by decide)
  · exact toNat_lt_of_val_le hd.2 (by decide)
  · decide
  · decide

/-- The byte of a key character is part of a name to the reader, and neither a space nor a
separator. -/
theorem keyChar_byte : ∀ n < 0x80, isKeyChar (Char.ofNat n) = true →
    isSpaceCode n = false ∧ n ≠ 61 ∧ n ≠ 58 ∧
      (n = 95 ∨ n = 46 ∨ isLatinLetter n = true ∨ isLatinNumber n = true) := by
  decide

/-- A key character is neither a space nor blank. -/
theorem keyChar_not_blank : ∀ n < 0x80, isKeyChar (Char.ofNat n) = true →
    isSpace (Char.ofNat n) = false ∧ Text.isBlank (Char.ofNat n) = false := by
  decide

theorem not_space_of_isKeyChar {c : Char} (h : isKeyChar c = true) :
    isSpace c = false ∧ Text.isBlank c = false := by
  have := keyChar_not_blank c.toNat (toNat_lt_of_isKeyChar h) (by rwa [Char.ofNat_toNat])
  rwa [Char.ofNat_toNat] at this

/-- The bytes of key characters are the characters' codes. -/
theorem bytesOf_keys {k : List Char} (hk : ∀ c ∈ k, isKeyChar c = true) :
    bytesOf k = k.map fun c => UInt8.ofNat c.toNat :=
  Text.Utf8.flatMap_utf8EncodeChar_ascii fun c hc => toNat_lt_of_isKeyChar (hk c hc)

theorem scan_key {k : List Char} (hk : ∀ c ∈ k, isKeyChar c = true) (more : List UInt8)
    (i : Nat) : keyOf.scan (bytesOf k ++ 61 :: more) i = .ok (some (i + k.length)) := by
  induction k generalizing i with
  | nil =>
    show keyOf.scan (61 :: more) i = .ok (some (i + 0))
    rw [keyOf.scan, if_neg (by decide), if_pos (by decide)]
    rfl
  | cons c k ih =>
    have hc := hk c List.mem_cons_self
    have hlt := toNat_lt_of_isKeyChar hc
    obtain ⟨hsp, h61, h58, hname⟩ := keyChar_byte c.toNat hlt (by rwa [Char.ofNat_toNat])
    have hb : (UInt8.ofNat c.toNat).toNat = c.toNat := Text.Utf8.toNat_ofNat_lt (by omega)
    have hsep : ¬ (UInt8.ofNat c.toNat = 61 ∨ UInt8.ofNat c.toNat = 58) := by
      rintro (h | h) <;> [exact h61 (by rw [← hb, h]; rfl); exact h58 (by rw [← hb, h]; rfl)]
    have hnm : UInt8.ofNat c.toNat = 95 ∨ UInt8.ofNat c.toNat = 46 ∨
        isLatinLetter c.toNat = true ∨ isLatinNumber c.toNat = true := by
      rcases hname with h | h | h | h
      · exact .inl (by rw [h]; rfl)
      · exact .inr (.inl (by rw [h]; rfl))
      · exact .inr (.inr (.inl h))
      · exact .inr (.inr (.inr h))
    rw [Text.Utf8.bytesOf_cons, Text.Utf8.utf8EncodeChar_one (by omega), List.singleton_append,
      List.cons_append, keyOf.scan, hb, hsp, if_neg (by simp), if_neg hsep, if_pos hnm,
      ih (fun c' hc' => hk c' (List.mem_cons_of_mem _ hc'))]
    simp only [List.length_cons]
    congr 2
    omega

/-- After the six letters of `export`, a plain key followed by `=` goes on with a key character
or the `=`, never a space. -/
theorem export_rest {k R X : List Char} (hk : ∀ c ∈ k, isKeyChar c = true)
    (h : "export".toList ++ X = k ++ '=' :: R) : ∀ c ∈ X.head?, isSpace c = false := by
  intro c hc
  rcases List.append_eq_append_iff.mp h with ⟨a, rfl, hX⟩ | ⟨a, hE, hR⟩
  · rw [hX] at hc
    cases a with
    | nil =>
      rw [List.nil_append, List.head?_cons, Option.mem_some_iff] at hc
      subst hc
      decide
    | cons d a =>
      rw [List.cons_append, List.head?_cons, Option.mem_some_iff] at hc
      subst hc
      exact (not_space_of_isKeyChar (hk d (by simp))).1
  · cases a with
    | nil =>
      rw [List.nil_append] at hR
      rw [← hR, List.head?_cons, Option.mem_some_iff] at hc
      subst hc
      decide
    | cons d a =>
      rw [List.cons_append, List.cons.injEq] at hR
      have hmem : '=' ∈ "export".toList := by rw [hE, hR.1]; simp
      exact absurd hmem (by decide)

/-- A key keeps its end when blanks are trimmed from it: its last character is not blank. -/
theorem trimEnd_keys {k : List Char} (hk : ∀ c ∈ k, isKeyChar c = true) :
    (k.reverse.dropWhile Text.isBlank).reverse = k := by
  rcases List.eq_nil_or_concat k with rfl | ⟨init, last, rfl⟩
  · rfl
  · have hlast := (not_space_of_isKeyChar (hk last (by simp))).2
    rw [List.concat_eq_append, List.reverse_append, List.reverse_singleton, List.singleton_append,
      List.dropWhile_cons_of_neg (by simp [hlast]), List.reverse_cons, List.reverse_reverse]

theorem length_bytesOf_keys {k : List Char} (hk : ∀ c ∈ k, isKeyChar c = true) :
    (bytesOf k).length = k.length := by
  rw [bytesOf_keys hk, List.length_map]

theorem chars_key_append (k : List Char) (more : List UInt8) :
    chars (bytesOf k ++ 61 :: more) = k ++ '=' :: chars more := by
  have h61 : bytesOf k ++ 61 :: more = bytesOf (k ++ ['=']) ++ more := by
    rw [Text.Utf8.bytesOf_append, List.append_assoc]
    rfl
  rw [chars, h61, Text.Utf8.decodeChars_encode_append, List.append_assoc]
  rfl

/-- The statement `KEY=...` with a plain key: its key, and what follows the `=` without its
leading spaces. A key may start with `export`, but then a key character or the `=` follows, so the
prefix is not taken for the keyword. -/
theorem keyOf_key {k : List Char} (hne : k ≠ []) (hk : ∀ c ∈ k, isKeyChar c = true)
    (more : List UInt8) :
    keyOf (bytesOf k ++ 61 :: more) = .ok (String.ofList k, dropCharsWhile isSpace more) := by
  obtain ⟨c0, k', rfl⟩ := List.exists_cons_of_ne_nil hne
  have hsrc : dropCharsWhile isSpace (bytesOf (c0 :: k') ++ 61 :: more) =
      bytesOf (c0 :: k') ++ 61 :: more := by
    rw [Text.Utf8.dropCharsWhile_encode_cons,
      if_neg (by simp [(not_space_of_isKeyChar (hk c0 (by simp))).1])]
  have hex : "export".toUTF8.toList = [101, 120, 112, 111, 114, 116] :=
    (Text.Utf8.encode_eq_flatMap "export").trans (by decide)
  have htake : List.take (0 + (c0 :: k').length) (bytesOf (c0 :: k') ++ 61 :: more) =
      bytesOf (c0 :: k') := by
    rw [Nat.zero_add, List.take_left' (length_bytesOf_keys hk)]
  have hafter : List.drop (0 + (c0 :: k').length + 1) (bytesOf (c0 :: k') ++ 61 :: more) =
      more := by
    rw [Nat.zero_add, ← List.drop_drop, List.drop_left' (length_bytesOf_keys hk), List.drop_one,
      List.tail_cons]
  have hkey : ((chars (bytesOf (c0 :: k'))).reverse.dropWhile Text.isBlank).reverse = c0 :: k' := by
    rw [chars, Text.Utf8.decodeChars_flatMap, trimEnd_keys hk]
  have hfull : (bytesOf (c0 :: k') ++ 61 :: more).isEmpty = false := by simp
  unfold keyOf
  rw [hsrc, hex]
  dsimp only
  -- whether or not the key starts with `export`, the statement is read from its first byte
  by_cases hp : [101, 120, 112, 111, 114, 116].isPrefixOf (bytesOf (c0 :: k') ++ 61 :: more) = true
  · simp only [hp, if_true]
    obtain ⟨t, ht⟩ := List.isPrefixOf_iff_prefix.mp hp
    have hdrop : (bytesOf (c0 :: k') ++ 61 :: more).drop 6 = t := by
      rw [← ht]
      rfl
    have hX : ∀ c ∈ (chars t).head?, isSpace c = false := by
      refine @export_rest (c0 :: k') (chars more) (chars t) hk ?_
      have hex' : ([101, 120, 112, 111, 114, 116] : List UInt8) = bytesOf "export".toList := by
        decide
      rw [← chars_key_append, ← ht, hex', chars, chars, Text.Utf8.decodeChars_encode_append]
    rw [hdrop]
    cases hc : chars t with
    | nil =>
      simp only [scan_key hk more 0, htake, hafter, hkey, hfull, Bool.false_eq_true, ↓reduceIte]
    | cons c tail =>
      have hsp : isSpace c = false := hX c (by rw [hc]; rfl)
      simp only [hsp, scan_key hk more 0, htake, hafter, hkey, hfull, Bool.false_eq_true,
        ↓reduceIte]
  · simp only [hp, scan_key hk more 0, htake, hafter, hkey, hfull, Bool.false_eq_true, ↓reduceIte]

end Keys

section Starts

/-! Where the next statement starts. The search for it passes over blank characters and comment
lines; its fuel only bounds the comment lines, so any fuel beyond the length of the bytes gives the
same start (`statementStart_fuel`). -/

theorem statementStart_fuel : ∀ (bs : List UInt8) {f g : Nat}, bs.length < f → bs.length < g →
    statementStart f bs = statementStart g bs := by
  intro bs
  induction h : bs.length using Nat.strong_induction_on generalizing bs with
  | _ n ih =>
  intro f g hf hg
  obtain ⟨f, rfl⟩ : ∃ f', f = f' + 1 := ⟨f - 1, by omega⟩
  obtain ⟨g, rfl⟩ : ∃ g', g = g' + 1 := ⟨g - 1, by omega⟩
  have hd := Text.Utf8.length_dropCharsWhile_le Text.isBlank bs
  simp only [statementStart]
  split
  · rfl
  · next rest hdrop =>
    -- a comment: the rest of the file after its line is shorter than the file
    rw [hdrop, List.length_cons] at hd
    cases hm : rest.dropWhile (· ≠ 10) with
    | nil => rfl
    | cons b more =>
      have hlen : (b :: more).length ≤ rest.length := hm ▸ List.length_dropWhile_le _ _
      exact ih (b :: more).length (by omega) (b :: more) rfl (by omega) (by omega)
  · rfl

theorem statementStart_congr {bs bs' : List UInt8} (f : Nat)
    (h : dropCharsWhile Text.isBlank bs = dropCharsWhile Text.isBlank bs') :
    statementStart f bs = statementStart f bs' := by
  cases f with
  | zero => rfl
  | succ f => simp only [statementStart, h]

/-- Blank characters before a statement are passed over. -/
theorem statementStart_blank (f : Nat) {b : List Char} (hb : ∀ c ∈ b, Text.isBlank c = true)
    (more : List UInt8) : statementStart f (bytesOf b ++ more) = statementStart f more := by
  refine statementStart_congr f ?_
  rw [Text.Utf8.dropCharsWhile_encode_append, if_pos (List.all_eq_true.mpr hb)]

theorem bytesOf_hash (c : List Char) : bytesOf ('#' :: c) = 35 :: bytesOf c := by
  rw [Text.Utf8.bytesOf_cons, show String.utf8EncodeChar '#' = [35] by decide]
  rfl

/-- A comment line is passed over up to its line break. -/
theorem statementStart_comment (f : Nat) {b c : List Char} (hb : ∀ x ∈ b, Text.isBlank x = true)
    (hc : '\n' ∉ c) (more : List UInt8) :
    statementStart (f + 1) (bytesOf (b ++ '#' :: c) ++ 10 :: more) =
      statementStart f (10 :: more) := by
  have hcut : (bytesOf c ++ 10 :: more).dropWhile (· ≠ 10) = 10 :: more := by
    rw [List.dropWhile_append_of_pos (by simpa using Text.Utf8.ne_of_mem_encode (by decide) hc),
      List.dropWhile_cons_of_neg (by simp)]
  rw [Text.Utf8.bytesOf_append, List.append_assoc, statementStart,
    Text.Utf8.dropCharsWhile_encode_append, if_pos (List.all_eq_true.mpr hb),
    Text.Utf8.dropCharsWhile_encode_cons, if_neg (by decide), bytesOf_hash]
  simp only [List.cons_append, hcut]

/-- A comment on the last line ends the file. -/
theorem statementStart_comment_end (f : Nat) {b c : List Char}
    (hb : ∀ x ∈ b, Text.isBlank x = true) (hc : '\n' ∉ c) :
    statementStart (f + 1) (bytesOf (b ++ '#' :: c)) = none := by
  have hcut : (bytesOf c).dropWhile (· ≠ 10) = [] :=
    List.dropWhile_eq_nil_iff.mpr (by simpa using Text.Utf8.ne_of_mem_encode (by decide) hc)
  rw [← List.append_nil (bytesOf (b ++ _)), Text.Utf8.bytesOf_append, List.append_assoc,
    statementStart, Text.Utf8.dropCharsWhile_encode_append, if_pos (List.all_eq_true.mpr hb),
    Text.Utf8.dropCharsWhile_encode_cons, if_neg (by decide), List.append_nil, bytesOf_hash]
  simp only [hcut]

/-- A statement starts at a key character. -/
theorem statementStart_key (f : Nat) {c : Char} (hc : isKeyChar c = true) (cs : List Char)
    (more : List UInt8) :
    statementStart (f + 1) (bytesOf (c :: cs) ++ more) = some (bytesOf (c :: cs) ++ more) := by
  have hlt := toNat_lt_of_isKeyChar hc
  have hhead : bytesOf (c :: cs) ++ more = UInt8.ofNat c.toNat :: (bytesOf cs ++ more) := by
    rw [Text.Utf8.bytesOf_cons, Text.Utf8.utf8EncodeChar_one (by omega)]
    rfl
  -- the first byte is the key character's code, never the `#` of a comment
  have hhash : UInt8.ofNat c.toNat ≠ 35 := by
    intro h
    have hb := keyChar_byte c.toNat hlt (by rwa [Char.ofNat_toNat])
    rw [← Text.Utf8.toNat_ofNat_lt (by omega : c.toNat < 256), h] at hb
    exact absurd hb.2.2.2 (by decide)
  rw [statementStart, Text.Utf8.dropCharsWhile_encode_cons,
    if_neg (by simp [(not_space_of_isKeyChar hc).2]), hhead]
  split
  · next h => exact absurd h (by simp)
  · next rest h => exact absurd (List.cons.inj h).1 hhash
  · rfl

/-- Blank characters before bytes change nothing of the statement found with fuel beyond the
length. -/
theorem statementStart_blank_length {b : List Char} (hb : ∀ c ∈ b, Text.isBlank c = true)
    (more : List UInt8) :
    statementStart ((bytesOf b ++ more).length + 1) (bytesOf b ++ more) =
      statementStart (more.length + 1) more := by
  rw [statementStart_blank _ hb]
  exact statementStart_fuel more (by simp) (by omega)

end Starts

section Values

/-- Bytes without `$` have no variables to expand. -/
theorem expandFrom_of_not_mem (look : String → List UInt8) (fuel : Nat) (bs : List UInt8)
    (h : 36 ∉ bs) : expandFrom look fuel bs = bs := by
  fun_induction expandFrom look fuel bs with
  | case1 => rfl
  | case2 => rfl
  | case3 => simp at h
  | case4 => simp at h
  | case5 fuel b rest h1 h2 ih =>
    rw [ih (fun hr => h (List.mem_cons_of_mem _ hr))]

theorem trimSpaces_sublist (cs : List Char) : List.Sublist (trimSpaces cs) cs := by
  have hback := (@List.dropWhile_sublist _ (cs.dropWhile isSpace).reverse isSpace).reverse
  rw [List.reverse_reverse] at hback
  exact hback.trans (List.dropWhile_sublist isSpace)

/-- An unquoted value without variables, followed by a line break or by the end of the file, is its
text cut at its comment and trimmed; reading goes on at the line break. -/
theorem valueOf_plain (look : String → List UInt8) {w : List Char} (hn : '\n' ∉ w)
    (hr : '\r' ∉ w) (hd : '$' ∉ w) (hq : ∀ q ∈ w.head?, q ≠ '"' ∧ q ≠ '\x27') {tail : List Char}
    (ht : tail = [] ∨ ∃ R, tail = '\n' :: R) :
    valueOf look (bytesOf (w ++ tail)) =
      .ok (Text.Utf8.encode (String.ofList (trimSpaces (w.take (commentCut w)))), bytesOf tail) := by
  have hend : ∀ x ∈ bytesOf w, (!decide (x = 10 ∨ x = 13)) = true := by
    intro x hx
    simp [@Text.Utf8.ne_of_mem_encode w 10 (by decide) hn x hx,
      @Text.Utf8.ne_of_mem_encode w 13 (by decide) hr x hx]
  have htail : (bytesOf tail).takeWhile (fun b => !decide (b = 10 ∨ b = 13)) = [] ∧
      (bytesOf tail).dropWhile (fun b => !decide (b = 10 ∨ b = 13)) = bytesOf tail := by
    rcases ht with rfl | ⟨R, rfl⟩
    · exact ⟨rfl, rfl⟩
    · exact ⟨rfl, rfl⟩
  have hvalue : expand look (String.ofList (trimSpaces (w.take (commentCut w)))).toUTF8.toList =
      Text.Utf8.encode (String.ofList (trimSpaces (w.take (commentCut w)))) := by
    refine expandFrom_of_not_mem look _ _ ?_
    show 36 ∉ Text.Utf8.encode _
    rw [Text.Utf8.encode_eq_flatMap, String.toList_ofList]
    refine Text.Utf8.not_mem_encode_ascii (by decide) fun hmem => hd ?_
    exact (List.take_sublist _ _).subset ((trimSpaces_sublist _).subset hmem)
  rw [Text.Utf8.bytesOf_append]
  unfold valueOf
  split
  · next h =>
    obtain ⟨hw, htl⟩ := List.append_eq_nil_iff.mp h
    have hw' : w = [] := List.eq_nil_iff_forall_not_mem.mpr (by simpa using hw)
    subst hw'
    rw [htl]
    simp [trimSpaces]
  · next q more h =>
    -- the first byte is the value's first character, or the line break after an empty value
    have hfirst : q.toNat < 0x80 → w.head? = some (Char.ofNat q.toNat) ∨ (w = [] ∧ q = 10) := by
      intro hlt
      rcases Text.Utf8.head_encode_ascii h hlt with rfl | hc
      · rcases ht with rfl | ⟨R, rfl⟩
        · simp at h
        · exact .inr ⟨rfl, (List.cons.inj h).1.symm⟩
      · exact .inl hc
    have hq' : ¬ (q = 34 ∨ q = 39) := by
      rintro (rfl | rfl)
      · rcases hfirst (by decide) with hc | ⟨-, h10⟩
        · exact (hq _ hc).1 rfl
        · exact absurd h10 (by decide)
      · rcases hfirst (by decide) with hc | ⟨-, h10⟩
        · exact (hq _ hc).2 rfl
        · exact absurd h10 (by decide)
    rw [if_neg hq']
    simp only [List.takeWhile_append_of_pos hend, List.dropWhile_append_of_pos hend, htail.1,
      htail.2, List.append_nil, chars, Text.Utf8.decodeChars_flatMap, hvalue]

end Values

section Lines

/-- A value on one line that is read as written: no line break, carriage return or `$` in it, and
no quote where it starts after its spaces. -/
structure PlainValue (v : List Char) : Prop where
  no_break : '\n' ∉ v
  no_return : '\r' ∉ v
  no_reference : '$' ∉ v
  unquoted : ∀ q ∈ (v.dropWhile isSpace).head?, q ≠ '"' ∧ q ≠ '\x27'

/-- The lines of a plain environment file; none holds a line break or a carriage return. -/
inductive PlainLine : List Char → Prop
  /-- Blank characters only. -/
  | blank {b : List Char} : (∀ c ∈ b, Text.isBlank c = true ∧ c ≠ '\n' ∧ c ≠ '\r') → PlainLine b
  /-- A comment: `#` after blank characters. -/
  | comment {b c : List Char} : (∀ x ∈ b, Text.isBlank x = true ∧ x ≠ '\n' ∧ x ≠ '\r') →
      '\n' ∉ c → '\r' ∉ c → PlainLine (b ++ '#' :: c)
  /-- A plain key, directly followed by `=` and a plain value. -/
  | assign {k v : List Char} : k ≠ [] → (∀ c ∈ k, isKeyChar c = true) → PlainValue v →
      PlainLine (k ++ '=' :: v)

/-- The key and the value of a line `KEY=value` whose key is plain. -/
def assignment (line : List Char) : Option (List Char × List Char) :=
  match line.dropWhile (· != '=') with
  | _ :: value =>
    let key := line.takeWhile (· != '=')
    if key ≠ [] ∧ key.all isKeyChar then some (key, value) else none
  | [] => none

/-- The text a reader gives a plain value: the value without its leading spaces, cut at its
comment, and trimmed. -/
def valueText (v : List Char) : String :=
  let w := v.dropWhile isSpace
  String.ofList (trimSpaces (w.take (commentCut w)))

theorem keyChar_ne_eq {c : Char} (h : isKeyChar c = true) : c ≠ '=' := by
  rintro rfl
  exact absurd h (by decide)

theorem assignment_assign {k : List Char} (hne : k ≠ []) (hk : ∀ c ∈ k, isKeyChar c = true)
    (v : List Char) : assignment (k ++ '=' :: v) = some (k, v) := by
  have hkey : ∀ c ∈ k, (c != '=') = true := fun c hc => by simpa using keyChar_ne_eq (hk c hc)
  simp only [assignment, List.dropWhile_append_of_pos hkey, List.takeWhile_append_of_pos hkey]
  simp [hne, List.all_eq_true.mpr hk]

theorem assignment_of_not_mem {l : List Char} (h : '=' ∉ l) : assignment l = none := by
  have hall : ∀ c ∈ l, (c != '=') = true := fun c hc => by
    simpa using fun he : c = '=' => h (he ▸ hc)
  simp only [assignment, List.dropWhile_eq_nil_iff.mpr hall]

/-- An assignment is read from a line `KEY=value` with a plain key. -/
theorem assignment_eq_some {l k v : List Char} (h : assignment l = some (k, v)) :
    l = k ++ '=' :: v ∧ k ≠ [] ∧ ∀ c ∈ k, isKeyChar c = true := by
  unfold assignment at h
  split at h
  · next x value hd =>
    dsimp only at h
    split at h
    · next hk =>
      cases h
      -- the first character after the key is the one that stopped it
      have hx := List.head_dropWhile_not (· != '=') (by simp [hd] : l.dropWhile (· != '=') ≠ [])
      simp only [hd, List.head_cons, bne_eq_false_iff_eq] at hx
      refine ⟨?_, hk.1, List.all_eq_true.mp hk.2⟩
      rw [hx] at hd
      rw [← hd, List.takeWhile_append_dropWhile]
    · cases h
  · cases h

/-- A line that is not an assignment: its key would hold a blank or `#`. -/
theorem assignment_comment {b c : List Char} (hb : ∀ x ∈ b, Text.isBlank x = true) :
    assignment (b ++ '#' :: c) = none := by
  have hkey : ∀ x ∈ b, (x != '=') = true := fun x hx => by
    have : x ≠ '=' := fun he => absurd (hb x hx) (by rw [he]; decide)
    simpa using this
  unfold assignment
  split
  · next value h =>
    rw [List.takeWhile_append_of_pos hkey, List.takeWhile_cons_of_pos (by decide)]
    have hhash : ¬ (b ++ '#' :: List.takeWhile (· != '=') c).all isKeyChar = true := fun h =>
      absurd (List.all_eq_true.mp h '#' (by simp)) (by decide)
    simp [hhash]
  · rfl

theorem PlainLine.no_return {l : List Char} (h : PlainLine l) : '\r' ∉ l := by
  cases h with
  | blank hb => exact fun hr => (hb _ hr).2.2 rfl
  | comment hb _ hc =>
    simp only [List.mem_append, List.mem_cons, not_or]
    exact ⟨fun hr => (hb _ hr).2.2 rfl, by decide, hc⟩
  | assign _ hk hv =>
    simp only [List.mem_append, List.mem_cons, not_or]
    exact ⟨fun hr => absurd (hk _ hr) (by decide), by decide, hv.no_return⟩

theorem statements_nil (f : Nat) (seen : List (String × List UInt8)) :
    statements f [] seen = .ok seen := by
  cases f with
  | zero => rfl
  | succ f => simp [statements, statementStart, Text.Utf8.dropCharsWhile]

/-- Two byte strings whose next statements start alike read alike. -/
theorem statements_congr {bs bs' : List UInt8}
    (h : statementStart (bs.length + 1) bs = statementStart (bs'.length + 1) bs') (f : Nat)
    (seen : List (String × List UInt8)) : statements f bs seen = statements f bs' seen := by
  cases f with
  | zero => rfl
  | succ f => simp only [statements, h]

/-- A line break before the next line is passed over. -/
theorem statements_newline (f : Nat) (R : List Char) (seen : List (String × List UInt8)) :
    statements f (bytesOf ('\n' :: R)) seen = statements f (bytesOf R) seen :=
  statements_congr (statementStart_blank_length (b := ['\n'])
    (fun c hc => by rw [List.mem_singleton.mp hc]; decide) _) f seen

/-- The entry a plain assignment adds to what has been read. -/
def entryOf (kv : List Char × List Char) : String × List UInt8 :=
  (String.ofList kv.1, Text.Utf8.encode (valueText kv.2))

/-- An assignment line, followed by a line break or the end of the file, adds its key and value. -/
theorem statements_assign {k v : List Char} (hne : k ≠ []) (hk : ∀ c ∈ k, isKeyChar c = true)
    (hv : PlainValue v) {tail : List Char} (ht : tail = [] ∨ ∃ R, tail = '\n' :: R) (f : Nat)
    (seen : List (String × List UInt8)) :
    statements (f + 1) (bytesOf ((k ++ '=' :: v) ++ tail)) seen =
      statements f (bytesOf tail) (entryOf (k, v) :: seen) := by
  obtain ⟨c, k', rfl⟩ := List.exists_cons_of_ne_nil hne
  have hbytes : bytesOf ((c :: k' ++ '=' :: v) ++ tail) = bytesOf (c :: k') ++ 61 :: bytesOf (v ++ tail) := by
    rw [List.append_assoc, Text.Utf8.bytesOf_append, List.cons_append,
      Text.Utf8.bytesOf_cons '=', show String.utf8EncodeChar '=' = [61] by decide]
    rfl
  -- the spaces after `=` are dropped by the key, the rest of the value is read unquoted
  have hspaces : dropCharsWhile isSpace (bytesOf (v ++ tail)) =
      bytesOf (v.dropWhile isSpace ++ tail) := by
    rw [Text.Utf8.bytesOf_append, Text.Utf8.dropCharsWhile_encode_append]
    split
    · next hall =>
      rw [List.dropWhile_eq_nil_iff.mpr (by simpa using hall), List.nil_append]
      rcases ht with rfl | ⟨R, rfl⟩
      · simp [Text.Utf8.dropCharsWhile]
      · rw [← List.append_nil (bytesOf ('\n' :: R)), Text.Utf8.dropCharsWhile_encode_cons,
          if_neg (by decide)]
    · rw [Text.Utf8.bytesOf_append]
  have hsub : ∀ x, x ∉ v → x ∉ v.dropWhile isSpace := fun x hx hw =>
    hx ((List.dropWhile_sublist isSpace).subset hw)
  rw [hbytes, statements, statementStart_key _ (hk c (by simp))]
  simp only
  rw [keyOf_key hne hk]
  simp only
  rw [hspaces, valueOf_plain _ (hsub _ hv.no_break) (hsub _ hv.no_return)
    (hsub _ hv.no_reference) hv.unquoted ht]
  rfl

/-- What follows a line: the end of the file, or a line break and the next lines. -/
def LineEnd (tail : List Char) : Prop := tail = [] ∨ ∃ R, tail = '\n' :: R

theorem bytesOf_newline (R : List Char) : bytesOf ('\n' :: R) = 10 :: bytesOf R := by
  rw [Text.Utf8.bytesOf_cons, show String.utf8EncodeChar '\n' = [10] by decide]
  rfl

theorem length_bytesOf_tail {tail : List Char} (ht : LineEnd tail) :
    (bytesOf tail.tail).length ≤ (bytesOf tail).length := by
  rcases ht with rfl | ⟨R, rfl⟩
  · rfl
  · simp

theorem statements_tail {tail : List Char} (ht : LineEnd tail) (f : Nat)
    (seen : List (String × List UInt8)) :
    statements f (bytesOf tail) seen = statements f (bytesOf tail.tail) seen := by
  rcases ht with rfl | ⟨R, rfl⟩
  · rfl
  · exact statements_newline f R seen

theorem isBlank_newline : Text.isBlank '\n' = true := by decide

theorem statementStart_nil (f : Nat) : statementStart f [] = none := by
  cases f <;> simp [statementStart, Text.Utf8.dropCharsWhile]

/-- A blank or comment line is passed over with the line break after it. -/
theorem statements_skip {l : List Char} (hl : PlainLine l) (hnone : assignment l = none)
    {tail : List Char} (ht : LineEnd tail) (f : Nat) (seen : List (String × List UInt8)) :
    statements f (bytesOf (l ++ tail)) seen = statements f (bytesOf tail.tail) seen := by
  have hnl : ∀ c ∈ ['\n'], Text.isBlank c = true := fun c hc => by
    rw [List.mem_singleton.mp hc]
    exact isBlank_newline
  refine statements_congr ?_ f seen
  cases hl with
  | blank hb =>
    have hb' : ∀ c ∈ l, Text.isBlank c = true := fun c hc => (hb c hc).1
    rcases ht with rfl | ⟨R, rfl⟩
    · rw [List.tail_nil, Text.Utf8.bytesOf_append]
      exact statementStart_blank_length hb' _
    · -- the line and its line break are blank characters
      have hall : ∀ c ∈ l ++ ['\n'], Text.isBlank c = true := fun c hc =>
        (List.mem_append.mp hc).elim (hb' c) (hnl c)
      rw [List.tail_cons, show l ++ '\n' :: R = (l ++ ['\n']) ++ R by simp,
        Text.Utf8.bytesOf_append]
      exact statementStart_blank_length hall _
  | comment hb hc _ =>
    have hb' : ∀ x ∈ _, Text.isBlank x = true := fun x hx => (hb x hx).1
    rcases ht with rfl | ⟨R, rfl⟩
    · rw [List.append_nil, List.tail_nil, statementStart_comment_end _ hb' hc]
      exact (statementStart_nil 1).symm
    · have h10 : 10 :: bytesOf R = bytesOf ['\n'] ++ bytesOf R := by
        rw [← Text.Utf8.bytesOf_append, List.singleton_append, bytesOf_newline]
      rw [List.tail_cons, Text.Utf8.bytesOf_append, bytesOf_newline, statementStart_comment _ hb' hc,
        h10, statementStart_blank _ hnl]
      exact statementStart_fuel _
        (by rw [← h10]; simp only [List.length_append, List.length_cons]; omega) (by omega)
  | assign hne hk _ =>
    rw [assignment_assign hne hk] at hnone
    cases hnone

theorem intercalate_lineEnd (l : List Char) (rest : List (List Char)) :
    ∃ tail, ['\n'].intercalate (l :: rest) = l ++ tail ∧ LineEnd tail ∧
      tail.tail = ['\n'].intercalate rest := by
  cases rest with
  | nil => exact ⟨[], by simp, .inl rfl, rfl⟩
  | cons m ms => exact ⟨'\n' :: ['\n'].intercalate (m :: ms), by simp, .inr ⟨_, rfl⟩, rfl⟩

/-- Reading plain lines, one statement after another: each assignment line adds its entry in front
of what was read before, and the other lines add nothing. The fuel only has to exceed the number
of bytes. -/
theorem statements_lines : ∀ (L : List (List Char)), (∀ l ∈ L, PlainLine l) →
    ∀ (f : Nat) (seen : List (String × List UInt8)),
      (bytesOf (['\n'].intercalate L)).length < f →
      statements f (bytesOf (['\n'].intercalate L)) seen =
        .ok ((L.filterMap assignment).reverse.map entryOf ++ seen)
  | [], _, f, seen, _ => statements_nil f seen
  | l :: rest, hL, f, seen, hf => by
    obtain ⟨tail, hsplit, ht, htail⟩ := intercalate_lineEnd l rest
    have hrest := statements_lines rest (fun l' h' => hL l' (List.mem_cons_of_mem _ h'))
    have hlen := length_bytesOf_tail ht
    rw [htail] at hlen
    rw [hsplit] at hf ⊢
    rw [Text.Utf8.bytesOf_append, List.length_append] at hf
    have hskip : assignment l = none → statements f (bytesOf (l ++ tail)) seen =
        .ok (((l :: rest).filterMap assignment).reverse.map entryOf ++ seen) := fun ha => by
      rw [statements_skip (hL l List.mem_cons_self) ha ht, htail, hrest f seen (by omega),
        List.filterMap_cons_none ha]
    cases hL l List.mem_cons_self with
    | blank hb => exact hskip (assignment_of_not_mem fun he => absurd (hb _ he).1 (by decide))
    | comment hb _ _ => exact hskip (assignment_comment fun x hx => (hb x hx).1)
    | @assign k v hne hk hv =>
      -- an assignment takes at least one byte, so one statement of fuel is there for it
      have hpos : 0 < (bytesOf (k ++ '=' :: v)).length := by
        simp only [Text.Utf8.bytesOf_append, Text.Utf8.bytesOf_cons, List.length_append]
        have := List.length_pos_of_ne_nil (String.utf8EncodeChar_ne_nil (c := '='))
        omega
      obtain ⟨f, rfl⟩ : ∃ f', f = f' + 1 := ⟨f - 1, by omega⟩
      rw [statements_assign hne hk hv ht, statements_tail ht, htail, hrest f _ (by omega),
        List.filterMap_cons_some (assignment_assign hne hk _)]
      simp

theorem joinLines_of_not_mem (bs : List UInt8) (h : 13 ∉ bs) : joinLines bs = bs := by
  fun_induction joinLines bs with
  | case1 => simp at h
  | case2 b rest _ ih => rw [ih (fun hr => h (List.mem_cons_of_mem _ hr))]
  | case3 => rfl

theorem not_mem_intercalate {c : Char} (hc : c ≠ '\n') :
    ∀ {L : List (List Char)}, (∀ l ∈ L, c ∉ l) → c ∉ ['\n'].intercalate L
  | [], _ => by simp
  | l :: rest, hL => by
    obtain ⟨tail, hsplit, ht, htail⟩ := intercalate_lineEnd l rest
    have hrest := not_mem_intercalate hc fun l' h' => hL l' (List.mem_cons_of_mem _ h')
    rw [hsplit, List.mem_append, not_or]
    refine ⟨hL l List.mem_cons_self, ?_⟩
    rcases ht with rfl | ⟨R, rfl⟩
    · simp
    · rw [List.tail_cons] at htail
      rw [List.mem_cons, not_or, htail]
      exact ⟨hc, hrest⟩

/-- What a reader makes of the lines of a plain file: their assignments, newest first. -/
def plainAssignments (L : List (List Char)) : List (String × String) :=
  (L.filterMap assignment).reverse.map fun kv => (String.ofList kv.1, valueText kv.2)

/-- A plain file reads as the assignments of its lines, newest first. -/
theorem read_lines (L : List (List Char)) (hL : ∀ l ∈ L, PlainLine l) :
    read (bytesOf (['\n'].intercalate L)) = .ok (plainAssignments L) := by
  have hcr : 13 ∉ bytesOf (['\n'].intercalate L) :=
    Text.Utf8.not_mem_encode_ascii (by decide)
      (not_mem_intercalate (by decide) fun l hl => (hL l hl).no_return)
  simp only [read, joinLines_of_not_mem _ hcr,
    statements_lines L hL _ [] (Nat.lt_succ_self _), List.append_nil]
  simp [Except.map, plainAssignments, entryOf, -Text.Utf8.encode_eq_flatMap,
    Text.Utf8.decode_encode]

/-- A text whose lines are plain reads as the assignments of its lines, newest first. -/
theorem read_plain (s : String) (hs : ∀ l ∈ s.splitOn "\n", PlainLine l.toList) :
    read (Text.Utf8.encode s) = .ok (plainAssignments ((s.splitOn "\n").map String.toList)) := by
  have hlines : (s.splitOn "\n").map String.toList = s.toList.splitOn '\n' := by
    rw [show "\n" = String.singleton '\n' from rfl, Text.splitOn_singleton, List.map_map]
    simp
  have hL : ∀ l ∈ s.toList.splitOn '\n', PlainLine l := by
    rw [← hlines]
    simpa using hs
  rw [Text.Utf8.encode_eq_flatMap, hlines, ← read_lines _ hL, List.intercalate_splitOn]

end Lines

end Settings.Dotenv

end TreeCatalog
