import Mathlib
import TreeCatalog.Document.Decode
import TreeCatalog.Proofs.Json.Recognise
import TreeCatalog.Proofs.Text.Trim

/-! # The two layouts of a document

A root entry is written either alone, as an object, or as the first element of an array. Reading
trims Unicode blanks from the ends of the whole text and then parses what is left as JSON, so the
two layouts put different texts before the parser: in the array the object stands between JSON
whitespace, commas and brackets, and it nests one level deeper.

When the object's text is JSON text on its own (the blanks around it are JSON whitespace) with
room for one more level, and the later elements are JSON texts with room as well, the array is
read to the same root (`decode_array_of_object`). The proof goes through the grammar: blanks in
front of a value must be JSON whitespace (`skipSpace_flatten_blanks`), so the object's text and
its trimmed text parse to one value (`parse_eq_of_trim_brace`), and the array's elements are read
one text after another (`items_texts`). A no-break space in front of the object is trimmed in the
object layout but refused inside the array (`decode_array_nbsp`). -/

namespace TreeCatalog.Document

open Json Json.Grammar Text

section Blanks

theorem isSpace_eq_false_of_lt {b : UInt8} (hb : 32 < b.toNat) : isSpace b = false := by
  have hne : ∀ n : UInt8, n.toNat ≤ 32 → b ≠ n := fun n hn hbn => by
    rw [hbn] at hb
    omega
  simp [isSpace, hne 32 (by decide), hne 9 (by decide), hne 10 (by decide), hne 13 (by decide)]

/-- Every byte a value can start with lies between the quote and the brace. -/
theorem value_head_range {fuel : Nat} {bs rest : List UInt8} {v : Value}
    (h : value fuel bs = some (v, rest)) :
    ∃ c r, skipSpace bs = c :: r ∧ 34 ≤ c.toNat ∧ c.toNat ≤ 123 := by
  obtain ⟨c, r, hs, hc⟩ := value_head h
  refine ⟨c, r, hs, ?_⟩
  rcases hc with rfl | rfl | rfl | rfl | rfl | rfl | rfl | hd
  iterate 7 decide
  · have := isDigit_iff.mp hd
    omega

/-- No value starts with a closing bracket. -/
theorem value_head_ne_close {fuel : Nat} {bs rest : List UInt8} {v : Value}
    (h : value fuel bs = some (v, rest)) : (skipSpace bs).head? ≠ some 93 := by
  obtain ⟨c, r, hs, hc⟩ := value_head h
  rw [hs, List.head?_cons, ne_eq, Option.some.injEq]
  rintro rfl
  revert hc
  decide

/-- A blank in front of a value is one byte of JSON whitespace: any other blank starts with a
control byte or a lead byte, and no value starts with either. -/
theorem blank_before_value {code : List UInt8} (hcode : code ∈ blankCodes) {fuel : Nat}
    {x rest : List UInt8} {v : Value} (h : value fuel (code ++ x) = some (v, rest)) :
    ∃ b, code = [b] ∧ isSpace b = true := by
  obtain ⟨hne, hshape⟩ := blankCodes_shape code hcode
  obtain ⟨b, r, rfl⟩ := List.exists_cons_of_ne_nil hne
  cases hsp : isSpace b with
  | true =>
    rcases hshape with ⟨hlen, -⟩ | ⟨hhead, -⟩
    · exact ⟨b, by simpa using hlen, hsp⟩
    · have hlead := UInt8.le_iff_toNat_le.mp (hhead b rfl)
      have := isSpace_eq_false_of_lt (lt_of_lt_of_le (by decide) hlead)
      rw [hsp] at this
      cases this
  | false =>
    obtain ⟨c, r', hs, hlo, hhi⟩ := value_head_range h
    rw [List.cons_append, skipSpace_cons_other hsp, List.cons.injEq] at hs
    obtain ⟨rfl, -⟩ := hs
    rcases hshape with ⟨-, hsmall⟩ | ⟨hhead, -⟩
    · have := UInt8.le_iff_toNat_le.mp (hsmall b (by simp))
      simp at this
      omega
    · have := UInt8.le_iff_toNat_le.mp (hhead b rfl)
      simp at this
      omega

/-- Blanks in front of a value are JSON whitespace, and reading passes over them. -/
theorem skipSpace_flatten_blanks {codes : List (List UInt8)}
    (hcodes : ∀ code ∈ codes, code ∈ blankCodes) {fuel : Nat} {x rest : List UInt8} {v : Value}
    (h : value (fuel + 1) (codes.flatten ++ x) = some (v, rest)) :
    skipSpace (codes.flatten ++ x) = skipSpace x := by
  induction codes with
  | nil => rfl
  | cons code codes ih =>
    rw [List.flatten_cons, List.append_assoc] at h ⊢
    obtain ⟨b, rfl, hb⟩ := blank_before_value (hcodes code (by simp)) h
    rw [List.singleton_append] at h ⊢
    rw [skipSpace_cons_space hb]
    -- the byte of whitespace changes nothing that the value is read from
    rw [← value_skipSpace, skipSpace_cons_space hb, value_skipSpace] at h
    exact ih (fun c hc => hcodes c (by simp [hc])) h

end Blanks

/-- A text that parses on its own, and whose trimmed text starts with a brace, parses to the value
of its trimmed text: the blanks in front are JSON whitespace and the object ends before the blanks
behind. -/
theorem parse_eq_of_trim_brace {s rest : List UInt8} {v w : Value}
    (ht : trimBytes s = 123 :: rest) (hs : parse s = .ok v) (hw : parse (trimBytes s) = .ok w) :
    v = w := by
  obtain ⟨codes, post, hcodes, hsplit⟩ := trimBytes_infix s
  obtain ⟨rs, hvs, -⟩ := text_eq_some.mp (parse_eq_ok_iff.mp hs).1
  obtain ⟨rt, hwt, -⟩ := text_eq_some.mp (parse_eq_ok_iff.mp hw).1
  rw [ht] at hsplit hwt
  have hlen : 2 * (123 :: rest).length + 2 ≤ 2 * s.length + 2 := by
    have := congrArg List.length hsplit
    simp only [List.length_append, List.length_cons] at this ⊢
    omega
  obtain ⟨ms, rfl⟩ := value_brace hwt
  -- an object is closed by its brace, so what follows cannot extend it
  have hpost := value_mono (value_append hwt post (fun _ h => by cases h)) hlen
  rw [List.append_assoc] at hsplit
  have hvs' : value (2 * s.length + 1 + 1) (codes.flatten ++ (123 :: rest ++ post)) =
      some (v, rs) := by
    rw [← hsplit]
    exact hvs
  have hfront := skipSpace_flatten_blanks hcodes hvs'
  rw [← value_skipSpace, hfront, List.cons_append, skipSpace_cons_other (by decide),
    ← List.cons_append] at hvs'
  have heq := hvs'.symm.trans hpost
  exact (Prod.mk.inj (Option.some.inj heq)).1

section Arrays

/-- A text the grammar reads whole is read the same way when a comma or a closing bracket
follows, and what is left leads through whitespace to that byte. -/
theorem value_text_sep {u : List UInt8} {w : Value} (hu : text u = some w) {fuel : Nat}
    (hfuel : 2 * u.length + 2 ≤ fuel) {sep : UInt8} (hsep : sep = 44 ∨ sep = 93)
    (more : List UInt8) :
    ∃ after, value fuel (u ++ sep :: more) = some (w, after) ∧ skipSpace after = sep :: more := by
  obtain ⟨r, hv, hr⟩ := text_eq_some.mp hu
  have hstop : isNumberByte sep = false := by
    rcases hsep with rfl | rfl <;> decide
  have hspace : isSpace sep = false := by
    rcases hsep with rfl | rfl <;> decide
  refine ⟨r ++ sep :: more, value_append (value_mono hv hfuel) (sep :: more) ?_, ?_⟩
  · intro _ _ _ b hb
    simp only [List.head?_cons, Option.mem_def, Option.some.injEq] at hb
    exact hb ▸ hstop
  · rw [skipSpace_append_of_nil hr, skipSpace_cons_other hspace]

/-- The elements of an array, each a text the grammar reads whole and each after the first
behind a comma, are read one after another up to the closing bracket. -/
theorem items_texts {us : List (List UInt8)} {ws : List Value}
    (hus : List.Forall₂ (fun u w => text u = some w) us ws) {u : List UInt8} {w : Value}
    (hu : text u = some w) {fuel : Nat}
    (hfuel : 2 * (u ++ us.flatMap (44 :: ·)).length + 2 < fuel) (first : Bool)
    (more : List UInt8) :
    items fuel first (skipSpace (u ++ (us.flatMap (44 :: ·) ++ 93 :: more))) =
      some (w :: ws, more) := by
  induction hus generalizing u w fuel first with
  | nil =>
    obtain ⟨n, rfl⟩ : ∃ n, fuel = n + 1 + 1 := ⟨fuel - 2, by omega⟩
    obtain ⟨after, hv, hafter⟩ := value_text_sep hu
      (show 2 * u.length + 2 ≤ n + 1 by simp at hfuel; omega) (Or.inr rfl) more
    have hne := value_head_ne_close hv
    rw [← value_skipSpace] at hv
    rw [List.flatMap_nil, List.nil_append]
    exact items_succ_eq_some.mpr (.inr ⟨w, after, hne, hv, .inr ⟨hafter, rfl⟩⟩)
  | @cons u' w' us' ws' hu' _ ih =>
    obtain ⟨n, rfl⟩ : ∃ n, fuel = n + 1 + 1 := ⟨fuel - 2, by omega⟩
    simp only [List.flatMap_cons, List.length_append, List.length_cons] at hfuel
    have htail : u ++ ((44 :: u') ++ us'.flatMap (44 :: ·) ++ 93 :: more) =
        u ++ 44 :: (u' ++ (us'.flatMap (44 :: ·) ++ 93 :: more)) := by
      simp
    obtain ⟨after, hv, hafter⟩ := value_text_sep hu (show 2 * u.length + 2 ≤ n + 1 by omega)
      (Or.inl rfl) (u' ++ (us'.flatMap (44 :: ·) ++ 93 :: more))
    have hne := value_head_ne_close hv
    rw [← value_skipSpace] at hv
    have hrest := ih hu'
      (show 2 * (u' ++ us'.flatMap (44 :: ·)).length + 2 < n + 1 by
        simp only [List.length_append]; omega) false
    rw [List.flatMap_cons, htail]
    exact items_succ_eq_some.mpr (.inr ⟨w, after, hne, hv,
      .inl ⟨_, w' :: ws', hafter, hrest, rfl⟩⟩)

theorem nestingItems_lt {n : Nat} (hn : 0 < n) {ws : List Value}
    (h : ∀ w ∈ ws, w.nesting < n) : nestingItems ws < n := by
  induction ws with
  | nil => exact hn
  | cons w ws ih =>
    rw [nestingItems]
    exact max_lt (h w (by simp)) (ih fun x hx => h x (by simp [hx]))

end Arrays

section Reading

/-! What reading does, by the first byte of the trimmed text. -/

theorem decode_of_empty {bytes : List UInt8} (h : trimBytes bytes = []) :
    decode bytes = .error .empty := by
  unfold decode
  simp only [h]

theorem decode_of_leading {bytes rest : List UInt8} {b : UInt8} (h : trimBytes bytes = b :: rest)
    (h123 : b ≠ 123) (h91 : b ≠ 91) : decode bytes = .error (.leading b) := by
  unfold decode
  simp [h, h123, h91]

/-- A text whose trimmed text starts with a brace is read as one entry object. -/
theorem decode_of_brace {bytes rest : List UInt8} (h : trimBytes bytes = 123 :: rest) :
    decode bytes = match parse (123 :: rest) with
      | .error e => .error (.malformed e)
      | .ok v => (entryOf v).map fun root => ⟨root, .object⟩ := by
  unfold decode
  simp only [h]
  rfl

/-- A text whose trimmed text starts with a bracket is read as an array whose first element is the
root. -/
theorem decode_of_bracket {bytes rest : List UInt8} (h : trimBytes bytes = 91 :: rest) :
    decode bytes = match parse (91 :: rest) with
      | .error e => .error (.malformed e)
      | .ok (.array (v :: _)) => (entryOf v).map fun root => ⟨root, .array⟩
      | .ok _ => .error .emptyArray := by
  unfold decode
  simp only [h]
  rfl

/-- A document read in the object layout: its trimmed text starts with a brace and parses to a
value whose entry is the root. -/
theorem decode_eq_object {bytes : List UInt8} {root : Entry}
    (h : decode bytes = .ok ⟨root, .object⟩) :
    ∃ rest v, trimBytes bytes = 123 :: rest ∧ parse (trimBytes bytes) = .ok v ∧
      entryOf v = .ok root := by
  cases ht : trimBytes bytes with
  | nil => simp [decode_of_empty ht] at h
  | cons b rest =>
    by_cases h123 : b = 123
    · subst h123
      rw [decode_of_brace ht] at h
      cases hp : parse (123 :: rest) with
      | error e => simp [hp] at h
      | ok v =>
        simp only [hp] at h
        cases he : entryOf v with
        | error e => simp [he, Except.map] at h
        | ok root' =>
          simp only [he, Except.map, Except.ok.injEq, Document.mk.injEq] at h
          exact ⟨rest, v, rfl, rfl, h.1 ▸ he⟩
    · by_cases h91 : b = 91
      · -- a text read as an array is in the array layout
        subst h91
        rw [decode_of_bracket ht] at h
        split at h
        · cases h
        · simp only [Except.map] at h
          split at h <;> cases h
        · cases h
      · simp [decode_of_leading ht h123 h91] at h

end Reading

/-- The two layouts agree: a text read as an object, and JSON text on its own with room for one
more level of nesting, is read to the same root as the first element of an array whose later
elements are JSON texts with room for one more level, each behind a comma. -/
theorem decode_array_of_object {s : List UInt8} {root : Entry} {v : Value}
    {us : List (List UInt8)} (hdec : decode s = .ok ⟨root, .object⟩) (hs : parse s = .ok v)
    (hv : v.nesting < maxDepth)
    (hus : ∀ u ∈ us, ∃ w, parse u = .ok w ∧ w.nesting < maxDepth) :
    decode (91 :: (s ++ us.flatMap (44 :: ·) ++ [93])) = .ok ⟨root, .array⟩ := by
  obtain ⟨rest, v', ht, hv', hentry⟩ := decode_eq_object hdec
  obtain rfl := parse_eq_of_trim_brace ht hs hv'
  -- each later element parses to a value that the grammar reads from its whole text
  obtain ⟨ws, hws, hdepth⟩ : ∃ ws, List.Forall₂ (fun u w => text u = some w) us ws ∧
      ∀ w ∈ ws, w.nesting < maxDepth := by
    induction us with
    | nil => exact ⟨[], .nil, by simp⟩
    | cons u us ih =>
      obtain ⟨w, hw, hwd⟩ := hus u (by simp)
      obtain ⟨ws, hws, hd⟩ := ih fun x hx => hus x (by simp [hx])
      exact ⟨w :: ws, .cons (parse_eq_ok_iff.mp hw).1 hws, List.forall_mem_cons.mpr ⟨hwd, hd⟩⟩
  have htext : text (91 :: (s ++ us.flatMap (44 :: ·) ++ [93])) = some (.array (v :: ws)) := by
    refine text_eq_some.mpr ⟨[], ?_, rfl⟩
    refine value_succ_eq_some.mpr ⟨91, _, skipSpace_cons_other (by decide) _, .inr (.inl
      ⟨rfl, v :: ws, ?_, rfl⟩)⟩
    rw [List.append_assoc]
    exact items_texts hws (parse_eq_ok_iff.mp hs).1
      (by simp only [List.length_cons, List.length_append]; omega) true []
  have hnest : (Value.array (v :: ws)).nesting ≤ maxDepth := by
    have : nestingItems (v :: ws) < maxDepth := nestingItems_lt (by decide)
      (List.forall_mem_cons.mpr ⟨hv, hdepth⟩)
    simp only [Value.nesting]
    omega
  have hparse := parse_eq_ok_iff.mpr ⟨htext, hnest⟩
  rw [decode_of_bracket (trimBytes_of_ends (by decide) (by decide) (by decide) (by decide) _),
    hparse]
  simp [hentry, Except.map]

/-- An entry object between JSON whitespace, and after it in the array a number. -/
theorem decode_array_of_object_named :
    decode [32, 123, 34, 110, 97, 109, 101, 34, 58, 34, 97, 34, 125, 10] =
        .ok ⟨⟨"", "a", 0, none⟩, .object⟩ ∧
      parse [32, 123, 34, 110, 97, 109, 101, 34, 58, 34, 97, 34, 125, 10] =
        .ok (.object [("name", .string "a")]) ∧
      (Value.object [("name", .string "a")]).nesting < maxDepth ∧
      (∀ u ∈ [[(49 : UInt8)]], ∃ w, parse u = .ok w ∧ w.nesting < maxDepth) ∧
      decode (91 :: ([32, 123, 34, 110, 97, 109, 101, 34, 58, 34, 97, 34, 125, 10] ++
        [[(49 : UInt8)]].flatMap (44 :: ·) ++ [93])) = .ok ⟨⟨"", "a", 0, none⟩, .array⟩ := by
  have hdec : decode [32, 123, 34, 110, 97, 109, 101, 34, 58, 34, 97, 34, 125, 10] =
      .ok ⟨⟨"", "a", 0, none⟩, .object⟩ := by cbv
  have hs : parse [32, 123, 34, 110, 97, 109, 101, 34, 58, 34, 97, 34, 125, 10] =
      .ok (.object [("name", .string "a")]) := by cbv
  have hv : (Value.object [("name", .string "a")]).nesting < maxDepth := by decide
  have hus : ∀ u ∈ [[(49 : UInt8)]], ∃ w, parse u = .ok w ∧ w.nesting < maxDepth := by
    intro u hu
    rw [List.mem_singleton.mp hu]
    exact ⟨.number "1", by cbv, by decide⟩
  exact ⟨hdec, hs, hv, hus, decode_array_of_object hdec hs hv hus⟩

/-- A no-break space in front of the object is trimmed when the object stands alone, and refused
inside the array, where only JSON whitespace may stand before a value. -/
theorem decode_array_nbsp :
    decode [0xc2, 0xa0, 123, 125] = .ok ⟨⟨"", "", 0, none⟩, .object⟩ ∧
      decode [91, 0xc2, 0xa0, 123, 125, 93] =
        .error (.malformed (.invalid [0xc2, 0xa0, 123, 125] .beginningOfValue)) :=
  ⟨by cbv, by cbv⟩

end TreeCatalog.Document
