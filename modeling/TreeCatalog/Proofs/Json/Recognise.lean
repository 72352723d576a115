import Mathlib
import TreeCatalog.Proofs.Json.Grammar

/-! # The recogniser decides the grammar

The byte-at-a-time recogniser of `Json.Syntax` and the grammar of `Proofs.Json.Grammar` accept the
same texts. Over a value the grammar reads, the recogniser passes from the value's first byte to
a state that reads the next byte as after a closed value (`Settled`), unless a container inside
opens past the nesting limit (`run_value`). Over a text on which the grammar fails, with enough
fuel, the recogniser refuses a byte or stops inside the value (`Stuck`). -/

namespace TreeCatalog.Json.Grammar

open Json

section Spaces

variable {fs : List Frame} {c : UInt8} {r : List UInt8}

/-- Where whitespace leaves the recogniser as it is, it reads a text as the text without its
leading whitespace. -/
theorem run_skipSpace {s : Scanner} (hs : ∀ c r, isSpace c = true → s.step c r = .ok s)
    (bs : List UInt8) : s.run bs = s.run (skipSpace bs) := by
  induction bs with
  | nil => rfl
  | cons b bs ih =>
    by_cases hb : isSpace b = true
    · rw [run_cons_of_step (hs b bs hb), ih]
      simp [skipSpace, List.dropWhile_cons_of_pos, hb]
    · simp [skipSpace, List.dropWhile_cons_of_neg, hb]

theorem isSpace_head_skipSpace {bs : List UInt8} (h : skipSpace bs = c :: r) :
    isSpace c = false := by
  have := List.head?_dropWhile_not isSpace bs
  rwa [← skipSpace, h] at this

/-- The modes that wait for a value, a key, a closing bracket or the end of the text. -/
def waitingModes : List Mode := [.value, .valueOrClose, .key, .keyOrClose, .done]

/-- A state that waits for the next token lets whitespace pass. -/
theorem step_space_waiting {s : Scanner} (hm : s.mode ∈ waitingModes) (h : isSpace c = true) :
    s.step c r = .ok s := by
  obtain ⟨m, fs⟩ := s
  simp only [waitingModes, List.mem_cons, List.not_mem_nil, or_false] at hm
  rcases hm with rfl | rfl | rfl | rfl | rfl <;> simp [Scanner.step, h]

theorem run_skip_waiting {s : Scanner} (hm : s.mode ∈ waitingModes) (bs : List UInt8) :
    s.run bs = s.run (skipSpace bs) :=
  run_skipSpace (fun _ _ hc => step_space_waiting hm hc) bs

theorem step_next_space {f : Frame} (h : isSpace c = true) :
    Scanner.step ⟨.next, f :: fs⟩ c r = .ok ⟨.next, f :: fs⟩ := by
  simp [Scanner.step, afterValue, h]

end Spaces

section Strings

variable {fs : List Frame}

/-- The recogniser passes over a string's contents and its closing quote, as the grammar reads
them. -/
theorem run_stringTail {r body after : List UInt8} (h : stringTail r = some (body, after)) :
    Scanner.run ⟨.token .string, fs⟩ r = Scanner.run ⟨.next, fs⟩ after := by
  fun_induction stringTail r generalizing body after with
  | case1 => simp at h
  | case2 c rest hq =>
    obtain ⟨-, rfl⟩ := Prod.mk.inj (Option.some.inj h).symm
    have hc : c = 34 := by simpa using hq
    subst hc
    exact run_cons_of_step rfl
  | case4 c hq hctl hb e more hshort ih =>
    obtain ⟨⟨b, a⟩, hrest, he⟩ := Option.map_eq_some_iff.mp h
    obtain ⟨-, rfl⟩ := Prod.mk.inj he
    have hc : c = 92 := by simpa using hb
    subst hc
    have hstep : Scanner.step ⟨.token .escape, fs⟩ e more = .ok ⟨.token .string, fs⟩ := by
      simp [Scanner.step, tokenStep, hshort]
    rw [run_cons_of_step (step_backslash _), run_cons_of_step hstep, ih hrest]
  | case5 c hq hctl hb e hshort hu a b' d f more hhex ih =>
    obtain ⟨⟨b, a'⟩, hrest, he⟩ := Option.map_eq_some_iff.mp h
    obtain ⟨-, rfl⟩ := Prod.mk.inj he
    have hc : c = 92 := by simpa using hb
    have he : e = 117 := by simpa using hu
    subst hc he
    simp only [Bool.and_eq_true] at hhex
    obtain ⟨⟨⟨ha, hb'⟩, hd⟩, hf⟩ := hhex
    have hstep : Scanner.step ⟨.token .escape, fs⟩ 117 (a :: b' :: d :: f :: more) =
        .ok ⟨.token (.hex 0), fs⟩ := by
      simp [Scanner.step, tokenStep, hexEscape, hshort, ha, hb', hd, hf]
    rw [run_cons_of_step (step_backslash _), run_cons_of_step hstep, run_hex, ih hrest]
  | case10 c rest hq hctl hb ih =>
    obtain ⟨⟨b, a⟩, hrest, he⟩ := Option.map_eq_some_iff.mp h
    obtain ⟨-, rfl⟩ := Prod.mk.inj he
    have hstep : Scanner.step ⟨.token .string, fs⟩ c rest = .ok ⟨.token .string, fs⟩ := by
      simp only [beq_iff_eq] at hq hb
      simp [Scanner.step, tokenStep, hq, hb, hctl]
    rw [run_cons_of_step hstep, ih hrest]
  | _ => simp at h

end Strings

section Numbers

/-! The recogniser reads a number byte by byte through the tokens of its parts; after the last
part the token has ended, and the byte that follows is read as after a value whatever it is. -/

variable {fs : List Frame}

/-- The number token `t` has ended before `r`: the byte that begins `r` is read as after a
value. -/
def Ends (t : Token) (r : List UInt8) : Prop :=
  ∀ b r', r = b :: r' → ∀ fs, tokenStep fs t b r' = afterValue fs b r'

theorem ends_nil (t : Token) : Ends t [] := fun _ _ h => by simp at h

/-- The tokens a digit keeps as they are. -/
theorem run_digits_stay {t : Token} (ht : t = .digits ∨ t = .fraction ∨ t = .exponent)
    {ds : List UInt8} (hds : ∀ b ∈ ds, isDigit b = true) (rest : List UInt8) :
    Scanner.run ⟨.token t, fs⟩ (ds ++ rest) = Scanner.run ⟨.token t, fs⟩ rest := by
  induction ds with
  | nil => rfl
  | cons d ds ih =>
    have hd := hds d (by simp)
    have hstep : Scanner.step ⟨.token t, fs⟩ d (ds ++ rest) = .ok ⟨.token t, fs⟩ := by
      rcases ht with rfl | rfl | rfl <;> simp [Scanner.step, tokenStep, hd]
    rw [List.cons_append, run_cons_of_step hstep, ih fun b hb => hds b (by simp [hb])]

/-- The integer part, from a state whose first digit starts it: the digits are one token,
`0` alone or `1` to `9` followed by digits, and the digits token ends at a byte that is not a
digit. -/
theorem run_intPart {s : Scanner}
    (hs : ∀ d more, 48 ≤ d.toNat → d.toNat ≤ 57 → s.step d more = .ok ⟨.token (firstDigitToken d), fs⟩)
    {x i r : List UInt8} (h : intPart x = some (i, r)) :
    ∃ t, (t = .zero ∨ t = .digits) ∧ (t = .digits → ∀ b ∈ r.head?, isDigit b = false) ∧
      s.run x = Scanner.run ⟨.token t, fs⟩ r := by
  unfold intPart at h
  split at h
  · obtain ⟨-, rfl⟩ := Prod.mk.inj (Option.some.inj h)
    refine ⟨.zero, .inl rfl, by simp, ?_⟩
    rw [run_cons_of_step (hs 48 _ (by decide) (by decide)), firstDigitToken, if_pos rfl]
  · next h48 =>
    obtain ⟨rfl, ⟨d, ds, rfl, hd⟩, hall, hstop⟩ := digitsPart_some h
    have hne : d ≠ 48 := fun h0 => h48 (ds ++ r) (by rw [h0]; rfl)
    obtain ⟨hd48, hd57⟩ := isDigit_iff.mp hd
    refine ⟨.digits, .inr rfl, fun _ => hstop, ?_⟩
    rw [List.cons_append, run_cons_of_step (hs d _ hd48 hd57), firstDigitToken, if_neg hne,
      run_digits_stay (.inl rfl) (fun b hb => hall b (List.mem_cons_of_mem d hb))]

/-- An optional fraction: a point turns a whole number into a fraction, whose digits are one
token. -/
theorem run_fracPart {t : Token} (ht : t = .zero ∨ t = .digits) {r f r₂ : List UInt8}
    (hstop : t = .digits → ∀ b ∈ r.head?, isDigit b = false) (h : fracPart r = some (f, r₂)) :
    ∃ t₂, (t₂ = .zero ∨ t₂ = .digits ∨ t₂ = .fraction) ∧
      (∀ b ∈ r₂.head?, (t₂ ≠ .zero → isDigit b = false) ∧ (t₂ ≠ .fraction → b ≠ 46)) ∧
      Scanner.run ⟨.token t, fs⟩ r = Scanner.run ⟨.token t₂, fs⟩ r₂ := by
  unfold fracPart at h
  split at h
  · next y =>
    obtain ⟨⟨ds, r'⟩, hds, hx⟩ := Option.map_eq_some_iff.mp h
    obtain ⟨-, rfl⟩ := Prod.mk.inj hx
    obtain ⟨rfl, ⟨d, ds, rfl, hd⟩, hall, hend⟩ := digitsPart_some hds
    have hpoint : Scanner.step ⟨.token t, fs⟩ 46 (d :: ds ++ r') = .ok ⟨.token .point, fs⟩ := by
      rcases ht with rfl | rfl <;> rfl
    have hfirst : Scanner.step ⟨.token .point, fs⟩ d (ds ++ r') = .ok ⟨.token .fraction, fs⟩ := by
      simp [Scanner.step, tokenStep, hd]
    refine ⟨.fraction, .inr (.inr rfl), fun b hb => ⟨fun _ => hend b hb, fun h => absurd rfl h⟩, ?_⟩
    rw [run_cons_of_step hpoint, List.cons_append, run_cons_of_step hfirst,
      run_digits_stay (.inr (.inl rfl)) (fun b hb => hall b (List.mem_cons_of_mem d hb))]
  · next h46 =>
    obtain ⟨-, rfl⟩ := Prod.mk.inj (Option.some.inj h)
    refine ⟨t, ht.imp id .inl, fun b hb => ⟨fun hz => hstop (ht.resolve_left hz) b hb, fun _ => ?_⟩,
      rfl⟩
    rintro rfl
    obtain ⟨r', hr⟩ : ∃ r', r = 46 :: r' := by
      cases r with
      | nil => simp at hb
      | cons b' r' => exact ⟨r', by simp at hb; rw [hb]⟩
    exact h46 r' hr

theorem ends_exponent {r : List UInt8} (h : ∀ b ∈ r.head?, isDigit b = false) :
    Ends .exponent r := by
  intro b r' hr fs
  have hb := h b (by rw [hr]; rfl)
  simp [tokenStep, hb]

/-- An optional exponent: a mark, an optional sign and digits, one token; without one the token
before it has ended. -/
theorem run_expPart {t : Token} (ht : t = .zero ∨ t = .digits ∨ t = .fraction)
    {r e r₃ : List UInt8}
    (hstop : ∀ b ∈ r.head?, (t ≠ .zero → isDigit b = false) ∧ (t ≠ .fraction → b ≠ 46))
    (h : expPart r = some (e, r₃)) :
    ∃ t₃, t₃.endsNumber = true ∧ Ends t₃ r₃ ∧
      Scanner.run ⟨.token t, fs⟩ r = Scanner.run ⟨.token t₃, fs⟩ r₃ := by
  have hends : t.endsNumber = true := by rcases ht with rfl | rfl | rfl <;> rfl
  cases r with
  | nil =>
    obtain ⟨-, rfl⟩ := Prod.mk.inj (Option.some.inj h).symm
    exact ⟨t, hends, ends_nil t, rfl⟩
  | cons m rest =>
    simp only [expPart] at h
    split_ifs at h with hm
    · have hmark : Scanner.step ⟨.token t, fs⟩ m rest = .ok ⟨.token .exponentMark, fs⟩ := by
        simp only [Bool.or_eq_true, beq_iff_eq] at hm
        rcases ht with rfl | rfl | rfl <;> rcases hm with rfl | rfl <;> rfl
      rw [run_cons_of_step hmark]
      cases rest with
      | nil => simp at h
      | cons sg more =>
        simp only at h
        split_ifs at h with hsg
        · -- a sign, then the digits
          obtain ⟨⟨ds, r'⟩, hds, hx⟩ := Option.map_eq_some_iff.mp h
          obtain ⟨-, rfl⟩ := Prod.mk.inj hx
          obtain ⟨rfl, ⟨d, ds, rfl, hd⟩, hall, hend⟩ := digitsPart_some hds
          have hsign : Scanner.step ⟨.token .exponentMark, fs⟩ sg (d :: ds ++ r') =
              .ok ⟨.token .exponentSign, fs⟩ := by
            simp [Scanner.step, tokenStep, hsg]
          have hfirst : Scanner.step ⟨.token .exponentSign, fs⟩ d (ds ++ r') =
              .ok ⟨.token .exponent, fs⟩ := by
            simp [Scanner.step, tokenStep, hd]
          refine ⟨.exponent, rfl, ends_exponent hend, ?_⟩
          rw [run_cons_of_step hsign, List.cons_append, run_cons_of_step hfirst,
            run_digits_stay (.inr (.inr rfl)) (fun b hb => hall b (List.mem_cons_of_mem d hb))]
        · -- the digits right after the mark
          obtain ⟨⟨ds, r'⟩, hds, hx⟩ := Option.map_eq_some_iff.mp h
          obtain ⟨-, rfl⟩ := Prod.mk.inj hx
          obtain ⟨hsplit, ⟨d, ds, rfl, hd⟩, hall, hend⟩ := digitsPart_some hds
          simp only [List.cons_append, List.cons.injEq] at hsplit
          obtain ⟨rfl, rfl⟩ := hsplit
          have hfirst : Scanner.step ⟨.token .exponentMark, fs⟩ sg (ds ++ r') =
              .ok ⟨.token .exponent, fs⟩ := by
            simp [Scanner.step, tokenStep, hsg, hd]
          refine ⟨.exponent, rfl, ends_exponent hend, ?_⟩
          rw [run_cons_of_step hfirst,
            run_digits_stay (.inr (.inr rfl)) (fun b hb => hall b (List.mem_cons_of_mem sg hb))]
    · -- no exponent: the token before it ends here
      obtain ⟨-, rfl⟩ := Prod.mk.inj (Option.some.inj h).symm
      refine ⟨t, hends, ?_, rfl⟩
      intro b r' hr fs'
      obtain ⟨rfl, rfl⟩ := List.cons.inj hr
      obtain ⟨hdig, h46⟩ := hstop _ rfl
      simp only [Bool.or_eq_true, beq_iff_eq, not_or] at hm
      rcases ht with rfl | rfl | rfl
      · simp [tokenStep, h46 (by decide), hm.1, hm.2]
      · simp [tokenStep, hdig (by decide), h46 (by decide), hm.1, hm.2]
      · simp [tokenStep, hdig (by decide), hm.1, hm.2]

/-- The parts of a number without its sign, from a state whose first digit starts it. -/
theorem run_unsignedParts {s : Scanner}
    (hs : ∀ d more, 48 ≤ d.toNat → d.toNat ≤ 57 → s.step d more = .ok ⟨.token (firstDigitToken d), fs⟩)
    {x i r₁ f r₂ e r₃ : List UInt8} (hi : intPart x = some (i, r₁)) (hf : fracPart r₁ = some (f, r₂))
    (he : expPart r₂ = some (e, r₃)) :
    ∃ t, t.endsNumber = true ∧ Ends t r₃ ∧ s.run x = Scanner.run ⟨.token t, fs⟩ r₃ := by
  obtain ⟨t₁, ht₁, hstop₁, hrun₁⟩ := run_intPart hs hi
  obtain ⟨t₂, ht₂, hstop₂, hrun₂⟩ := run_fracPart ht₁ hstop₁ hf
  obtain ⟨t₃, ht₃, hend, hrun₃⟩ := run_expPart ht₂ hstop₂ he
  exact ⟨t₃, ht₃, hend, by rw [hrun₁, hrun₂, hrun₃]⟩

/-- The recogniser takes a number the grammar reads as one token, ended before what follows. -/
theorem run_number {bs lit rest : List UInt8} (h : number bs = some (lit, rest)) :
    ∃ t, t.endsNumber = true ∧ Ends t rest ∧
      Scanner.run ⟨.value, fs⟩ bs = Scanner.run ⟨.token t, fs⟩ rest := by
  unfold number at h
  split at h
  · obtain ⟨⟨l, r⟩, hl, hx⟩ := Option.map_eq_some_iff.mp h
    obtain ⟨-, rfl⟩ := Prod.mk.inj hx
    obtain ⟨i, r₁, f, r₂, e, hi, hf, he, -, -⟩ := unsignedNumber_eq_some.mp hl
    rw [run_cons_of_step (rfl : Scanner.step ⟨.value, fs⟩ 45 _ = .ok ⟨.token .minus, fs⟩)]
    exact run_unsignedParts (fun _ more h48 h57 => step_minus_digit more h48 h57) hi hf he
  · obtain ⟨i, r₁, f, r₂, e, hi, hf, he, -, -⟩ := unsignedNumber_eq_some.mp h
    exact run_unsignedParts (fun _ more h48 h57 => step_value_digit more h48 h57) hi hf he

end Numbers

section Values

/-- A state reached at the end of a value inside the containers `fs`, in which the byte that begins
`rest` is read as right after a closed value: a closing quote or word leaves `.next`, a closing
bracket `.done` at the top, and a number its last token, ended before `rest`. -/
inductive Settled (fs : List Frame) : Scanner → List UInt8 → Prop
  | next (rest : List UInt8) : Settled fs ⟨.next, fs⟩ rest
  | closed (rest : List UInt8) : Settled fs ⟨if fs.isEmpty then .done else .next, fs⟩ rest
  | number {t : Token} {rest : List UInt8} (ht : t.endsNumber = true) (hends : Ends t rest) :
      Settled fs ⟨.token t, fs⟩ rest

variable {fs : List Frame}

theorem Settled.run_cons {s : Scanner} {c : UInt8} {r : List UInt8} (h : Settled fs s (c :: r)) :
    s.run (c :: r) = Scanner.run ⟨.next, fs⟩ (c :: r) := by
  cases h with
  | next => rfl
  | closed => exact run_closed fs c r
  | @number t _ _ hends =>
    have hstep : Scanner.step ⟨.token t, fs⟩ c r = Scanner.step ⟨.next, fs⟩ c r :=
      hends c r rfl fs
    rw [Json.run_cons, hstep, ← Json.run_cons]

/-- Inside a container, the state after a value reads the whitespace after it as nothing. -/
theorem Settled.run_skip {f : Frame} {s : Scanner} {after : List UInt8}
    (h : Settled (f :: fs) s after) (hne : skipSpace after ≠ []) :
    s.run after = Scanner.run ⟨.next, f :: fs⟩ (skipSpace after) := by
  cases after with
  | nil => exact absurd rfl hne
  | cons a as =>
    rw [h.run_cons]
    exact run_skipSpace (fun _ _ hc => step_next_space hc) _

theorem run_value_skip (bs : List UInt8) :
    Scanner.run ⟨.value, fs⟩ bs = Scanner.run ⟨.value, fs⟩ (skipSpace bs) :=
  run_skip_waiting (by simp [waitingModes]) bs

theorem run_true (rest : List UInt8) :
    Scanner.run ⟨.value, fs⟩ (116 :: ([114, 117, 101] ++ rest)) = Scanner.run ⟨.next, fs⟩ rest :=
  rfl

theorem run_false (rest : List UInt8) :
    Scanner.run ⟨.value, fs⟩ (102 :: ([97, 108, 115, 101] ++ rest)) =
      Scanner.run ⟨.next, fs⟩ rest :=
  rfl

theorem run_null (rest : List UInt8) :
    Scanner.run ⟨.value, fs⟩ (110 :: ([117, 108, 108] ++ rest)) = Scanner.run ⟨.next, fs⟩ rest :=
  rfl

mutual
/-- Over a value the grammar reads, the recogniser passes to a state settled after it, unless a
container inside opens past the nesting limit. -/
theorem run_value {fuel : Nat} {bs : List UInt8} {v : Value} {rest : List UInt8}
    (h : value fuel bs = some (v, rest)) (fs : List Frame) (hfs : fs.length ≤ maxDepth) :
    ∃ s, Settled fs s rest ∧ Scanner.run ⟨.value, fs⟩ bs =
      if fs.length + v.nesting ≤ maxDepth then s.run rest else .error .tooDeep := by
  cases fuel with
  | zero => simp [value] at h
  | succ fuel =>
    obtain ⟨c, r, hs, hp⟩ := value_succ_eq_some.mp h
    have hflat : fs.length + 0 ≤ maxDepth := hfs
    rw [run_value_skip, hs]
    rcases hp with ⟨rfl, ms, hp, rfl⟩ | ⟨rfl, vs, hp, rfl⟩ | ⟨rfl, body, hp, rfl⟩ |
      ⟨rfl, hp, rfl⟩ | ⟨rfl, hp, rfl⟩ | ⟨rfl, hp, rfl⟩ | ⟨lit, hp, rfl⟩
    · refine ⟨_, .closed rest, ?_⟩
      have hin : fs.length < maxDepth → Scanner.run ⟨.keyOrClose, .objectKey :: fs⟩ r =
          if fs.length + 1 + nestingMembers ms ≤ maxDepth then
            Scanner.run ⟨if fs.isEmpty then .done else .next, fs⟩ rest
          else .error .tooDeep := fun hlt => run_members hp hlt
      rw [run_open rfl, ite_open hin]
      rfl
    · refine ⟨_, .closed rest, ?_⟩
      have hin : fs.length < maxDepth → Scanner.run ⟨.valueOrClose, .arrayValue :: fs⟩ r =
          if fs.length + 1 + nestingItems vs ≤ maxDepth then
            Scanner.run ⟨if fs.isEmpty then .done else .next, fs⟩ rest
          else .error .tooDeep := fun hlt => run_items hp hlt
      rw [run_open rfl, ite_open hin]
      rfl
    · exact ⟨_, .next rest, by rw [run_cons_of_step rfl, run_stringTail hp]; exact (if_pos hflat).symm⟩
    · exact ⟨_, .next rest, by rw [keyword_eq_some.mp hp, run_true]; exact (if_pos hflat).symm⟩
    · exact ⟨_, .next rest, by rw [keyword_eq_some.mp hp, run_false]; exact (if_pos hflat).symm⟩
    · exact ⟨_, .next rest, by rw [keyword_eq_some.mp hp, run_null]; exact (if_pos hflat).symm⟩
    · obtain ⟨t, ht, hends, hrun⟩ := @run_number fs _ _ _ hp
      exact ⟨_, .number ht hends, by rw [hrun]; exact (if_pos hflat).symm⟩
termination_by fuel

/-- Over the items of an array the grammar reads, from after the opening bracket or a comma, the
recogniser passes the closing bracket, unless an item nests too deep. -/
theorem run_items {fuel : Nat} {first : Bool} {bs : List UInt8} {vs : List Value}
    {rest : List UInt8} (h : items fuel first (skipSpace bs) = some (vs, rest)) {fs : List Frame}
    (hfs : fs.length < maxDepth) :
    Scanner.run ⟨cond first .valueOrClose .value, .arrayValue :: fs⟩ bs =
      if fs.length + 1 + nestingItems vs ≤ maxDepth then
        Scanner.run ⟨if fs.isEmpty then .done else .next, fs⟩ rest
      else .error .tooDeep := by
  cases fuel with
  | zero => simp [items] at h
  | succ fuel =>
    rw [run_skipSpace (fun _ _ hc => by cases first <;> simp [Scanner.step, hc]) bs]
    rcases items_succ_eq_some.mp h with ⟨rfl, hb, rfl⟩ | ⟨v, after, hne, hv, hsep⟩
    · have hle : fs.length + 1 + nestingItems [] ≤ maxDepth := by
        rw [nestingItems]
        omega
      rw [hb, cond_true, run_cons_of_step (step_close_emptyArray _ _), if_pos hle]
    · obtain ⟨b, bs', hb⟩ : ∃ b bs', skipSpace bs = b :: bs' := by
        cases hsk : skipSpace bs with
        | nil => rw [hsk, value_nil] at hv; simp at hv
        | cons b bs' => exact ⟨b, bs', rfl⟩
      -- the first byte of an item is read as the start of a value
      have hval : Scanner.run ⟨cond first .valueOrClose .value, .arrayValue :: fs⟩ (b :: bs') =
          Scanner.run ⟨.value, .arrayValue :: fs⟩ (b :: bs') := by
        cases first
        · rfl
        · exact run_valueOrClose (fun h93 => hne (by rw [hb, h93]; rfl)) (isSpace_head_skipSpace hb)
      obtain ⟨s, hset, hrun⟩ := run_value hv (.arrayValue :: fs)
        (by rw [List.length_cons]; omega)
      rw [hb, hval, ← hb, hrun, List.length_cons]
      rcases hsep with ⟨more, vs', hs, hi, rfl⟩ | ⟨hs, rfl⟩
      · have hnext := run_items hi hfs
        rw [cond_false] at hnext
        rw [hset.run_skip (by simp [hs]), hs, run_cons_of_step (step_comma_item _ _), hnext,
          ite_within, Nat.add_max_add_left]
        rfl
      · rw [hset.run_skip (by simp [hs]), hs, run_cons_of_step (step_close_items _ _)]
        simp only [nestingItems, Nat.max_zero]
termination_by fuel

/-- Over the members of an object the grammar reads, from after the opening brace or a comma, the
recogniser passes the closing brace, unless a value nests too deep. -/
theorem run_members {fuel : Nat} {first : Bool} {bs : List UInt8} {ms : List (String × Value)}
    {rest : List UInt8} (h : members fuel first (skipSpace bs) = some (ms, rest))
    {fs : List Frame} (hfs : fs.length < maxDepth) :
    Scanner.run ⟨cond first .keyOrClose .key, .objectKey :: fs⟩ bs =
      if fs.length + 1 + nestingMembers ms ≤ maxDepth then
        Scanner.run ⟨if fs.isEmpty then .done else .next, fs⟩ rest
      else .error .tooDeep := by
  cases fuel with
  | zero => simp [members] at h
  | succ fuel =>
    rw [run_skipSpace (fun _ _ hc => by cases first <;> simp [Scanner.step, hc]) bs]
    rcases members_succ_eq_some.mp h with ⟨rfl, hb, rfl⟩ |
      ⟨r, body, after, r₂, v, after₂, hb, ht, hs, hv, hsep⟩
    · have hle : fs.length + 1 + nestingMembers [] ≤ maxDepth := by
        rw [nestingMembers]
        omega
      rw [hb, cond_true, run_cons_of_step (step_close_emptyObject _ _), if_pos hle]
    · have hkey : Scanner.step ⟨cond first .keyOrClose .key, .objectKey :: fs⟩ 34 r =
          .ok ⟨.token .string, .objectKey :: fs⟩ := by
        cases first <;> rfl
      -- the key, its closing quote, whitespace and the colon; the value is read in its frame
      rw [hb, run_cons_of_step hkey, run_stringTail ht,
        run_skipSpace (fun _ _ hc => step_next_space hc), hs, run_cons_of_step rfl]
      obtain ⟨s, hset, hrun⟩ := run_value hv (.objectValue :: fs)
        (by rw [List.length_cons]; omega)
      rw [hrun, List.length_cons]
      rcases hsep with ⟨r₃, ms', hs₂, hm, rfl⟩ | ⟨hs₂, rfl⟩
      · have hnext := run_members hm hfs
        rw [cond_false] at hnext
        rw [hset.run_skip (by simp [hs₂]), hs₂, run_cons_of_step (step_comma_member _ _), hnext,
          ite_within, Nat.add_max_add_left]
        rfl
      · rw [hset.run_skip (by simp [hs₂]), hs₂, run_cons_of_step (step_close_members _ _)]
        simp only [nestingMembers, Nat.max_zero]
termination_by fuel
end

end Values

section Stuck

/-! Where the grammar refuses a text, the recogniser refuses a byte of it or runs out of text
inside the value, never reaching a state that could end the value. -/

/-- A state inside a value that began in the containers `fs` and has not ended: in containers the
value opened, or still where the value begins, or inside a token that cannot end there. -/
def Inside (fs : List Frame) (s : Scanner) : Prop :=
  (∃ g gs, s.frames = g :: gs ++ fs ∧ s.mode ≠ .done) ∨
    (s.frames = fs ∧ (s.mode = .value ∨ ∃ t, s.mode = .token t ∧ t.endsNumber = false))

/-- The recogniser refuses the text, or stops inside the value. -/
def Stuck (fs : List Frame) (r : Except SyntaxError Scanner) : Prop :=
  ∀ s, r = .ok s → Inside fs s

variable {fs : List Frame}

theorem Inside.of_cons {f : Frame} {s : Scanner} (h : Inside (f :: fs) s) : Inside fs s := by
  rcases h with ⟨g, gs, hfr, hmode⟩ | ⟨hfr, hmode⟩
  · exact .inl ⟨g, gs ++ [f], by simp [hfr], hmode⟩
  · refine .inl ⟨f, [], by simp [hfr], ?_⟩
    rcases hmode with hm | ⟨t, hm, -⟩ <;> rw [hm] <;> simp

theorem Stuck.of_cons {f : Frame} {r : Except SyntaxError Scanner} (h : Stuck (f :: fs) r) :
    Stuck fs r :=
  fun s hs => (h s hs).of_cons

theorem stuck_error (e : SyntaxError) : Stuck fs (.error e) := fun _ h => by cases h

theorem stuck_of_step_error {s : Scanner} {c : UInt8} {r : List UInt8} {e : SyntaxError}
    (h : s.step c r = .error e) : Stuck fs (s.run (c :: r)) := by
  rw [run_cons, h]
  exact stuck_error e

theorem stuck_token {t : Token} (ht : t.endsNumber = false) :
    Stuck fs (Scanner.run ⟨.token t, fs⟩ []) :=
  fun s hs => by
    cases hs
    exact .inr ⟨rfl, .inr ⟨t, rfl, ht⟩⟩

/-- A state inside a value at the top is not one the text may end in. -/
theorem Inside.complete {s : Scanner} (h : Inside [] s) : s.complete = false := by
  obtain ⟨mode, frames⟩ := s
  rcases h with ⟨g, gs, hfr, hmode⟩ | ⟨hfr, hmode⟩
  · simp only at hfr hmode
    subst hfr
    cases mode <;> simp_all [Scanner.complete]
  · simp only at hfr hmode
    subst hfr
    rcases hmode with rfl | ⟨t, rfl, ht⟩
    · rfl
    · simp [Scanner.complete, ht]

/-- Inside a string the grammar refuses, the recogniser refuses a byte or runs out of text. -/
theorem stringTail_stuck {r : List UInt8} (h : stringTail r = none) :
    Stuck fs (Scanner.run ⟨.token .string, fs⟩ r) := by
  fun_induction stringTail r with
  | case1 => exact stuck_token rfl
  | case2 => simp at h
  | case3 c rest hq hctl =>
    have h34 : c ≠ 34 := by simpa using hq
    have h92 : c ≠ 92 := by
      rintro rfl
      exact absurd hctl (by decide)
    exact stuck_of_step_error (e := refuse c rest .inString)
      (by simp [Scanner.step, tokenStep, h34, h92, hctl])
  | case4 c hq hctl hb e more hshort ih =>
    have hc : c = 92 := by simpa using hb
    subst hc
    have hstep : Scanner.step ⟨.token .escape, fs⟩ e more = .ok ⟨.token .string, fs⟩ := by
      simp [Scanner.step, tokenStep, hshort]
    rw [run_cons_of_step (step_backslash _), run_cons_of_step hstep]
    exact ih (by simpa using h)
  | case5 c hq hctl hb e hshort hu a b' d f more hhex ih =>
    have hc : c = 92 := by simpa using hb
    have he : e = 117 := by simpa using hu
    subst hc he
    simp only [Bool.and_eq_true] at hhex
    obtain ⟨⟨⟨ha, hb'⟩, hd⟩, hf⟩ := hhex
    have hstep : Scanner.step ⟨.token .escape, fs⟩ 117 (a :: b' :: d :: f :: more) =
        .ok ⟨.token (.hex 0), fs⟩ := by
      simp [Scanner.step, tokenStep, hexEscape, hshort, ha, hb', hd, hf]
    rw [run_cons_of_step (step_backslash _), run_cons_of_step hstep, run_hex]
    exact ih (by simpa using h)
  | case6 c hq hctl hb e hshort hu a b' d f more hhex =>
    have hc : c = 92 := by simpa using hb
    have he : e = 117 := by simpa using hu
    subst hc he
    rw [run_cons_of_step (step_backslash _)]
    exact stuck_of_step_error (e := .badEscape [92, 117, a, b', d, f]) (by
      simp [Scanner.step, tokenStep, hexEscape, hshort]
      intro ha hb' hd
      simpa [ha, hb', hd] using hhex)
  | case7 c hq hctl hb e more hshort hu hshort4 =>
    have hc : c = 92 := by simpa using hb
    have he : e = 117 := by simpa using hu
    subst hc he
    have hlen : more.length < 4 := by
      rcases more with _ | ⟨a, _ | ⟨b', _ | ⟨d, _ | ⟨f, more'⟩⟩⟩⟩
      · simp
      · simp
      · simp
      · simp
      · exact (hshort4 a b' d f more' rfl).elim
    -- fewer than four bytes after the u: the escape is cut short or bad, an error either way
    have hbad : ∃ e, hexEscape fs more = .error e := by
      have hshort' : (more.take 4).length ≠ 4 := by simp; omega
      unfold hexEscape
      dsimp only
      split_ifs <;> exact ⟨_, rfl⟩
    obtain ⟨err, herr⟩ := hbad
    rw [run_cons_of_step (step_backslash _)]
    exact stuck_of_step_error (e := err) (by simp [Scanner.step, tokenStep, hshort, herr])
  | case8 c hq hctl hb e more hshort hu =>
    have hc : c = 92 := by simpa using hb
    subst hc
    have hu' : (e == 117) = false := by simpa using hu
    rw [run_cons_of_step (step_backslash _)]
    exact stuck_of_step_error (e := .badEscape [92, e])
      (by simp [Scanner.step, tokenStep, hshort, hu'])
  | case9 c hq hctl hb =>
    have hc : c = 92 := by simpa using hb
    subst hc
    rw [run_cons_of_step (step_backslash _)]
    exact stuck_token rfl
  | case10 c rest hq hctl hb ih =>
    have hstep : Scanner.step ⟨.token .string, fs⟩ c rest = .ok ⟨.token .string, fs⟩ := by
      simp only [beq_iff_eq] at hq hb
      simp [Scanner.step, tokenStep, hq, hb, hctl]
    rw [run_cons_of_step hstep]
    exact ih (by simpa using h)

theorem keyword_cons_cons {x b : UInt8} {xs r : List UInt8} :
    keyword (x :: xs) (b :: r) = if x = b then keyword xs r else none := by
  by_cases hx : x = b
  · subst hx
    simp [keyword, List.isPrefixOf]
  · simp [keyword, List.isPrefixOf, hx]

/-- Inside a word the grammar refuses, the recogniser refuses a letter or runs out of text. -/
theorem keyword_stuck (w : String) (pending : List Char) (hne : pending ≠ []) {r : List UInt8}
    (h : keyword (pending.map fun ch => UInt8.ofNat ch.toNat) r = none) :
    Stuck fs (Scanner.run ⟨.token (.keyword w pending), fs⟩ r) := by
  induction pending generalizing r with
  | nil => exact absurd rfl hne
  | cons e more ih =>
    cases r with
    | nil => exact stuck_token rfl
    | cons b r =>
      by_cases hb : b.toNat = e.toNat
      · have hbe : UInt8.ofNat e.toNat = b := by rw [← hb, UInt8.ofNat_toNat]
        rw [List.map_cons, keyword_cons_cons, if_pos hbe] at h
        cases more with
        | nil => simp [keyword] at h
        | cons e' more' =>
          have hstep : Scanner.step ⟨.token (.keyword w (e :: e' :: more')), fs⟩ b r =
              .ok ⟨.token (.keyword w (e' :: more')), fs⟩ := by
            simp [Scanner.step, tokenStep, hb]
          rw [run_cons_of_step hstep]
          exact ih (List.cons_ne_nil _ _) h
      · exact stuck_of_step_error (e := refuse b r (.inKeyword w e))
          (by simp [Scanner.step, tokenStep, hb])

theorem digitsPart_none {x : List UInt8} (h : digitsPart x = none) :
    ∀ d x', x = d :: x' → isDigit d = false := by
  rintro d x' rfl
  cases hd : isDigit d
  · rfl
  · simp [digitsPart, hd] at h

theorem intPart_none {x : List UInt8} (h : intPart x = none) :
    ∀ d x', x = d :: x' → isDigit d = false := by
  unfold intPart at h
  split at h
  · simp at h
  · exact digitsPart_none h

theorem fracPart_none {r : List UInt8} (h : fracPart r = none) :
    ∃ y, r = 46 :: y ∧ ∀ d y', y = d :: y' → isDigit d = false := by
  unfold fracPart at h
  split at h
  · next y => exact ⟨y, rfl, digitsPart_none (Option.map_eq_none_iff.mp h)⟩
  · simp at h

/-- A number byte is neither whitespace nor a separator or closing bracket. -/
theorem numberByte_ne {b : UInt8} (h : isNumberByte b = true) :
    isSpace b = false ∧ b ≠ 58 ∧ b ≠ 44 ∧ b ≠ 125 ∧ b ≠ 93 := by
  simp only [isNumberByte, Bool.or_eq_true, beq_iff_eq] at h
  rcases h with ((((hd | rfl) | rfl) | rfl) | rfl) | rfl
  · obtain ⟨h48, h57⟩ := isDigit_iff.mp hd
    rw [← UInt8.ofNat_toNat (x := b)]
    generalize b.toNat = k at h48 h57
    interval_cases k <;> decide
  all_goals decide

theorem afterValue_numberByte {b : UInt8} {r : List UInt8} (h : isNumberByte b = true) :
    ∃ e, afterValue fs b r = .error e := by
  obtain ⟨hsp, h58, h44, h125, h93⟩ := numberByte_ne h
  cases fs with
  | nil => exact ⟨refuse b r .afterTop, by simp [afterValue, hsp]⟩
  | cons f fs =>
    cases f with
    | objectKey => exact ⟨refuse b r .afterKey, by simp [afterValue, hsp, h58]⟩
    | objectValue => exact ⟨refuse b r .afterPair, by simp [afterValue, hsp, h44, h125]⟩
    | arrayValue => exact ⟨refuse b r .afterElement, by simp [afterValue, hsp, h44, h93]⟩

/-- A byte that is no digit starts neither `0` nor the digits `1` to `9`. -/
theorem not_digit_range {d : UInt8} (hd : isDigit d = false) :
    d ≠ 48 ∧ (49 ≤ d && d ≤ 57) = false := by
  have hnot : ¬(48 ≤ d.toNat ∧ d.toNat ≤ 57) := fun h' => by simp [isDigit_iff.mpr h'] at hd
  refine ⟨fun h => hnot (by rw [h]; decide), ?_⟩
  simp only [Bool.and_eq_false_iff, decide_eq_false_iff_not, UInt8.not_le, UInt8.lt_iff_toNat_lt]
  simp only [UInt8.reduceToNat]
  omega

/-- After a sign, a point or the sign of an exponent a digit must follow. -/
theorem stuck_needsDigit {t : Token} (ht : t = .minus ∨ t = .point ∨ t = .exponentSign)
    {y : List UInt8} (hy : ∀ d y', y = d :: y' → isDigit d = false) :
    Stuck fs (Scanner.run ⟨.token t, fs⟩ y) := by
  cases y with
  | nil => exact stuck_token (by rcases ht with rfl | rfl | rfl <;> rfl)
  | cons d y =>
    have hd := hy d y rfl
    obtain ⟨h48, hrange⟩ := not_digit_range hd
    rcases ht with rfl | rfl | rfl
    · exact stuck_of_step_error (e := refuse d y .inNumber)
        (by simp [Scanner.step, tokenStep, h48, hrange])
    · exact stuck_of_step_error (e := refuse d y .inNumber) (by simp [Scanner.step, tokenStep, hd])
    · exact stuck_of_step_error (e := refuse d y .inNumber) (by simp [Scanner.step, tokenStep, hd])

/-- An exponent the grammar refuses: a mark with no digits after it or its sign. -/
theorem expPart_stuck {t : Token} (ht : t = .zero ∨ t = .digits ∨ t = .fraction)
    {r : List UInt8} (h : expPart r = none) : Stuck fs (Scanner.run ⟨.token t, fs⟩ r) := by
  cases r with
  | nil => simp [expPart] at h
  | cons m y =>
    simp only [expPart] at h
    split_ifs at h with hm
    have hmark : Scanner.step ⟨.token t, fs⟩ m y = .ok ⟨.token .exponentMark, fs⟩ := by
      simp only [Bool.or_eq_true, beq_iff_eq] at hm
      rcases ht with rfl | rfl | rfl <;> rcases hm with rfl | rfl <;> rfl
    rw [run_cons_of_step hmark]
    cases y with
    | nil => exact stuck_token rfl
    | cons sg z =>
      simp only at h
      split_ifs at h with hsg
      · have hsign : Scanner.step ⟨.token .exponentMark, fs⟩ sg z =
            .ok ⟨.token .exponentSign, fs⟩ := by
          simp [Scanner.step, tokenStep, hsg]
        rw [run_cons_of_step hsign]
        exact stuck_needsDigit (.inr (.inr rfl)) (digitsPart_none (Option.map_eq_none_iff.mp h))
      · have hd := digitsPart_none (Option.map_eq_none_iff.mp h) sg z rfl
        exact stuck_of_step_error (e := refuse sg z .inNumber)
          (by simp [Scanner.step, tokenStep, hsg, hd])

/-- A number without its sign that the grammar refuses: a part is missing its digits, or a byte
that could continue a number follows the last part. -/
theorem unsigned_stuck {s : Scanner}
    (hs : ∀ d more, 48 ≤ d.toNat → d.toNat ≤ 57 → s.step d more = .ok ⟨.token (firstDigitToken d), fs⟩)
    {x : List UInt8} (hint : intPart x = none → Stuck fs (s.run x))
    (h : unsignedNumber x = none) : Stuck fs (s.run x) := by
  cases hi : intPart x with
  | none => exact hint hi
  | some ir =>
    obtain ⟨i, r₁⟩ := ir
    obtain ⟨t₁, ht₁, hstop₁, hrun₁⟩ := run_intPart hs hi
    rw [hrun₁]
    cases hf : fracPart r₁ with
    | none =>
      obtain ⟨y, rfl, hy⟩ := fracPart_none hf
      have hpoint : Scanner.step ⟨.token t₁, fs⟩ 46 y = .ok ⟨.token .point, fs⟩ := by
        rcases ht₁ with rfl | rfl <;> rfl
      rw [run_cons_of_step hpoint]
      exact stuck_needsDigit (.inr (.inl rfl)) hy
    | some fr =>
      obtain ⟨f, r₂⟩ := fr
      obtain ⟨t₂, ht₂, hstop₂, hrun₂⟩ := run_fracPart ht₁ hstop₁ hf
      rw [hrun₂]
      cases he : expPart r₂ with
      | none => exact expPart_stuck ht₂ he
      | some er =>
        obtain ⟨e, r₃⟩ := er
        obtain ⟨t₃, -, hends, hrun₃⟩ := run_expPart ht₂ hstop₂ he
        rw [hrun₃]
        -- every part was read, so the number fails only on a number byte after it
        have hnum : ∃ b r', r₃ = b :: r' ∧ isNumberByte b = true := by
          unfold unsignedNumber at h
          simp only [hi, hf, he] at h
          split_ifs at h with hany
          cases r₃ with
          | nil => simp at hany
          | cons b r' => exact ⟨b, r', rfl, by simpa using hany⟩
        obtain ⟨b, r', rfl, hb⟩ := hnum
        obtain ⟨err, herr⟩ := @afterValue_numberByte fs _ r' hb
        have hstep : Scanner.step ⟨.token t₃, fs⟩ b r' = .error err := by
          rw [← herr]
          exact hends b r' rfl fs
        exact stuck_of_step_error hstep

/-- A number the grammar refuses, from its first byte. -/
theorem number_stuck {c : UInt8} {r : List UInt8} (h : number (c :: r) = none)
    (hstart : c ≠ 123 ∧ c ≠ 91 ∧ c ≠ 34 ∧ c ≠ 116 ∧ c ≠ 102 ∧ c ≠ 110)
    (hsp : isSpace c = false) : Stuck fs (Scanner.run ⟨.value, fs⟩ (c :: r)) := by
  by_cases h45 : c = 45
  · subst h45
    have hu : unsignedNumber r = none := Option.map_eq_none_iff.mp h
    rw [run_cons_of_step (rfl : Scanner.step ⟨.value, fs⟩ 45 r = .ok ⟨.token .minus, fs⟩)]
    exact unsigned_stuck (fun _ more h48 h57 => step_minus_digit more h48 h57)
      (fun hi => stuck_needsDigit (.inl rfl) (intPart_none hi)) hu
  · have hu : unsignedNumber (c :: r) = none := by
      unfold number at h
      split at h
      · next heq => exact absurd (List.cons.inj heq).1 h45
      · exact h
    by_cases hd : isDigit c = true
    · exact unsigned_stuck (fun _ more h48 h57 => step_value_digit more h48 h57)
        (fun hi => absurd (intPart_none hi c r rfl) (by simp [hd])) hu
    · -- no value begins with this byte
      obtain ⟨h123, h91, h34, h116, h102, h110⟩ := hstart
      obtain ⟨h48, hrange⟩ := not_digit_range (by simpa using hd)
      exact stuck_of_step_error (e := refuse c r .beginningOfValue)
        (by simp [Scanner.step, beginValue, hsp, h123, h91, h34, h116, h102, h110, h45, h48,
          hrange])

/-- Inside a container, a text that ends after a value and whitespace stops inside the
container. -/
theorem Settled.stuck_blank {f : Frame} {s : Scanner} {after : List UInt8}
    (h : Settled (f :: fs) s after) (hb : skipSpace after = []) : Stuck fs (s.run after) := by
  have hnext : Inside fs ⟨.next, f :: fs⟩ := .inl ⟨f, [], rfl, by simp⟩
  cases after with
  | nil =>
    rintro s' ⟨⟩
    cases h with
    | next => exact hnext
    | closed => exact hnext
    | number => exact .inl ⟨f, [], rfl, by simp⟩
  | cons a as =>
    rw [h.run_cons, run_skipSpace (fun _ _ hc => step_next_space hc), hb]
    rintro s' ⟨⟩
    exact hnext

theorem run_items_skip {first : Bool} (bs : List UInt8) :
    Scanner.run ⟨cond first .valueOrClose .value, .arrayValue :: fs⟩ bs =
      Scanner.run ⟨cond first .valueOrClose .value, .arrayValue :: fs⟩ (skipSpace bs) :=
  run_skip_waiting (by cases first <;> simp [waitingModes]) bs

theorem run_members_skip {first : Bool} (bs : List UInt8) :
    Scanner.run ⟨cond first .keyOrClose .key, .objectKey :: fs⟩ bs =
      Scanner.run ⟨cond first .keyOrClose .key, .objectKey :: fs⟩ (skipSpace bs) :=
  run_skip_waiting (by cases first <;> simp [waitingModes]) bs

mutual
/-- Where the grammar, with fuel to spare, reads no value, the recogniser refuses a byte or stops
inside the value. -/
theorem value_stuck {fuel : Nat} {bs : List UInt8} (h : value fuel bs = none)
    (hfuel : 2 * bs.length < fuel) (fs : List Frame) :
    Stuck fs (Scanner.run ⟨.value, fs⟩ bs) := by
  cases fuel with
  | zero => omega
  | succ fuel =>
    rw [run_value_skip]
    cases hs : skipSpace bs with
    | nil =>
      rintro s ⟨⟩
      exact .inr ⟨rfl, .inl rfl⟩
    | cons c r =>
      have hr := length_lt_of_skipSpace hs
      rw [value, hs] at h
      simp only [beq_iff_eq] at h
      split_ifs at h with h123 h91 h34 h116 h102 h110
      · subst h123
        rw [run_open rfl]
        split
        · next hopen =>
          exact members_stuck true (Option.map_eq_none_iff.mp h) (by omega) (by omega)
        · exact stuck_error _
      · subst h91
        rw [run_open rfl]
        split
        · next hopen =>
          exact items_stuck true (Option.map_eq_none_iff.mp h) (by omega) (by omega)
        · exact stuck_error _
      · subst h34
        rw [run_cons_of_step rfl]
        exact stringTail_stuck (Option.map_eq_none_iff.mp h)
      · subst h116
        rw [run_cons_of_step rfl]
        exact keyword_stuck "true" ['r', 'u', 'e'] (List.cons_ne_nil _ _)
          (Option.map_eq_none_iff.mp h)
      · subst h102
        rw [run_cons_of_step rfl]
        exact keyword_stuck "false" ['a', 'l', 's', 'e']
          (List.cons_ne_nil _ _) (Option.map_eq_none_iff.mp h)
      · subst h110
        rw [run_cons_of_step rfl]
        exact keyword_stuck "null" ['u', 'l', 'l'] (List.cons_ne_nil _ _)
          (Option.map_eq_none_iff.mp h)
      · exact number_stuck (Option.map_eq_none_iff.mp h) ⟨h123, h91, h34, h116, h102, h110⟩
          (isSpace_head_skipSpace hs)
termination_by fuel

/-- Where the grammar, with fuel to spare, reads no items, the recogniser refuses a byte or stops
inside the array. -/
theorem items_stuck {fuel : Nat} (first : Bool) {bs : List UInt8}
    (h : items fuel first (skipSpace bs) = none) (hfuel : 2 * bs.length + 1 < fuel)
    {fs : List Frame} (hfs : fs.length < maxDepth) :
    Stuck fs (Scanner.run ⟨cond first .valueOrClose .value, .arrayValue :: fs⟩ bs) := by
  cases fuel with
  | zero => omega
  | succ fuel =>
    rw [run_items_skip]
    have hlen := length_skipSpace_le bs
    cases hs : skipSpace bs with
    | nil =>
      rintro s ⟨⟩
      exact .inl ⟨.arrayValue, [], rfl, by cases first <;> simp⟩
    | cons c r =>
      rw [hs] at h hlen
      rw [items] at h
      by_cases h93 : c = 93
      · subst h93
        cases first
        · exact stuck_of_step_error (e := refuse 93 r .beginningOfValue) rfl
        · simp at h
      · simp only [beq_iff_eq, h93, if_false] at h
        -- the first byte of an item is read as the start of a value
        have hval : Scanner.run ⟨cond first .valueOrClose .value, .arrayValue :: fs⟩ (c :: r) =
            Scanner.run ⟨.value, .arrayValue :: fs⟩ (c :: r) := by
          cases first
          · rfl
          · exact run_valueOrClose h93 (isSpace_head_skipSpace hs)
        rw [hval]
        cases hv : value fuel (c :: r) with
        | none => exact (value_stuck hv (by simp only [List.length_cons] at hlen ⊢; omega) _).of_cons
        | some p =>
          obtain ⟨v, after⟩ := p
          have hlv := value_length hv
          obtain ⟨s, hset, hrun⟩ := run_value hv (.arrayValue :: fs)
            (by rw [List.length_cons]; omega)
          rw [hrun]
          split
          · simp only [hv] at h
            cases hs' : skipSpace after with
            | nil => exact hset.stuck_blank hs'
            | cons d more =>
              rw [hset.run_skip (by simp [hs']), hs']
              simp only [hs'] at h
              by_cases h44 : d = 44
              · subst h44
                rw [run_cons_of_step (step_comma_item _ _)]
                have hmore := length_lt_of_skipSpace hs'
                have hnone : items fuel false (skipSpace more) = none := by simpa using h
                exact items_stuck false hnone
                  (by simp only [List.length_cons] at hlv hlen; omega) hfs
              · have hd93 : d ≠ 93 := fun hd => by simp [hd] at h
                exact stuck_of_step_error (e := refuse d more .afterElement)
                  (by simp [Scanner.step, afterValue, isSpace_head_skipSpace hs', h44, hd93])
          · exact stuck_error _
termination_by fuel

/-- Where the grammar, with fuel to spare, reads no members, the recogniser refuses a byte or
stops inside the object. -/
theorem members_stuck {fuel : Nat} (first : Bool) {bs : List UInt8}
    (h : members fuel first (skipSpace bs) = none) (hfuel : 2 * bs.length + 1 < fuel)
    {fs : List Frame} (hfs : fs.length < maxDepth) :
    Stuck fs (Scanner.run ⟨cond first .keyOrClose .key, .objectKey :: fs⟩ bs) := by
  cases fuel with
  | zero => omega
  | succ fuel =>
    rw [run_members_skip]
    have hlen := length_skipSpace_le bs
    cases hs : skipSpace bs with
    | nil =>
      rintro s ⟨⟩
      exact .inl ⟨.objectKey, [], rfl, by cases first <;> simp⟩
    | cons c r =>
      rw [hs] at h hlen
      rw [members] at h
      have hsp := isSpace_head_skipSpace hs
      by_cases h125 : c = 125
      · subst h125
        cases first
        · exact stuck_of_step_error (e := refuse 125 r .beginningOfKey) rfl
        · simp at h
      · by_cases h34 : c = 34
        · subst h34
          simp only [beq_iff_eq, h125, if_false, if_true] at h
          have hkey : Scanner.step ⟨cond first .keyOrClose .key, .objectKey :: fs⟩ 34 r =
              .ok ⟨.token .string, .objectKey :: fs⟩ := by
            cases first <;> rfl
          rw [run_cons_of_step hkey]
          cases ht : stringTail r with
          | none => exact (stringTail_stuck ht).of_cons
          | some p =>
            obtain ⟨body, after⟩ := p
            have hla := stringTail_length ht
            rw [run_stringTail ht, run_skipSpace (fun _ _ hc => step_next_space hc)]
            simp only [ht] at h
            cases hs₁ : skipSpace after with
            | nil =>
              rintro s ⟨⟩
              exact .inl ⟨.objectKey, [], rfl, by simp⟩
            | cons d r₂ =>
              simp only [hs₁] at h
              have hr₂ := length_lt_of_skipSpace hs₁
              by_cases h58 : d = 58
              · subst h58
                simp only [if_true] at h
                rw [run_cons_of_step rfl]
                cases hv : value fuel r₂ with
                | none =>
                  exact (value_stuck hv (by simp only [List.length_cons] at hlen; omega) _).of_cons
                | some q =>
                  obtain ⟨v, after₂⟩ := q
                  have hlv := value_length hv
                  obtain ⟨s, hset, hrun⟩ := run_value hv (.objectValue :: fs)
                    (by rw [List.length_cons]; omega)
                  rw [hrun]
                  split
                  · simp only [hv] at h
                    cases hs₂ : skipSpace after₂ with
                    | nil => exact hset.stuck_blank hs₂
                    | cons e r₃ =>
                      rw [hset.run_skip (by simp [hs₂]), hs₂]
                      simp only [hs₂] at h
                      by_cases h44 : e = 44
                      · subst h44
                        rw [run_cons_of_step (step_comma_member _ _)]
                        have hr₃ := length_lt_of_skipSpace hs₂
                        have hnone : members fuel false (skipSpace r₃) = none := by simpa using h
                        exact members_stuck false hnone
                          (by simp only [List.length_cons] at hlen; omega) hfs
                      · have he125 : e ≠ 125 := fun he => by simp [he] at h
                        exact stuck_of_step_error (e := refuse e r₃ .afterPair)
                          (by simp [Scanner.step, afterValue, isSpace_head_skipSpace hs₂, h44,
                            he125])
                  · exact stuck_error _
              · exact stuck_of_step_error (e := refuse d r₂ .afterKey)
                  (by simp [Scanner.step, afterValue, isSpace_head_skipSpace hs₁, h58])
        · have hbad : Scanner.step ⟨cond first .keyOrClose .key, .objectKey :: fs⟩ c r =
              .error (refuse c r .beginningOfKey) := by
            cases first <;> simp [Scanner.step, beginKey, hsp, h125, h34]
          exact stuck_of_step_error hbad
termination_by fuel
end

end Stuck

section Text

/-! At the top the recogniser starts with no container open; the text may end once the value is
complete, and only whitespace may follow it. -/

/-- After the top value, whitespace and nothing else. -/
theorem run_top_blank {rest : List UInt8} (h : skipSpace rest = []) :
    Scanner.run ⟨.next, []⟩ rest = .ok ⟨.done, []⟩ ∨ rest = [] := by
  cases rest with
  | nil => exact .inr rfl
  | cons a as =>
    have ha : isSpace a = true := by
      by_contra ha
      simp [skipSpace, List.dropWhile_cons_of_neg, ha] at h
    have has : skipSpace as = [] := by
      simpa [skipSpace, List.dropWhile_cons_of_pos, ha] using h
    left
    rw [run_cons_of_step (by simp [Scanner.step, afterValue, ha] :
        Scanner.step ⟨.next, []⟩ a as = .ok ⟨.done, []⟩),
      run_skip_waiting (by simp [waitingModes]), has]
    rfl

/-- After the top value, a byte other than whitespace is refused. -/
theorem run_top_trailing {rest r : List UInt8} {c : UInt8} (h : skipSpace rest = c :: r) :
    ∃ e, Scanner.run ⟨.next, []⟩ rest = .error e := by
  have hc := isSpace_head_skipSpace h
  cases rest with
  | nil => simp [skipSpace] at h
  | cons a as =>
    by_cases ha : isSpace a = true
    · have has : skipSpace as = c :: r := by
        simpa [skipSpace, List.dropWhile_cons_of_pos, ha] using h
      rw [run_cons_of_step (by simp [Scanner.step, afterValue, ha] :
          Scanner.step ⟨.next, []⟩ a as = .ok ⟨.done, []⟩),
        run_skip_waiting (by simp [waitingModes]), has]
      exact ⟨refuse c r .afterTop, by simp [run_cons, Scanner.step, hc]⟩
    · exact ⟨refuse a as .afterTop, by simp [run_cons, Scanner.step, afterValue, ha]⟩

theorem Settled.complete {s : Scanner} (h : Settled [] s []) : s.complete = true := by
  cases h with
  | next => rfl
  | closed => rfl
  | number ht => simp [Scanner.complete, ht]

/-- The recogniser accepts a text exactly when the grammar reads one value from it with only
whitespace after, nesting at most `maxDepth` containers deep. -/
theorem check_eq_ok_iff {bs : List UInt8} :
    check bs = .ok () ↔ ∃ v, text bs = some v ∧ v.nesting ≤ maxDepth := by
  have hfuel : 2 * bs.length < 2 * bs.length + 2 := by omega
  unfold text check
  constructor
  · intro h
    split at h
    · next s hrun =>
      have hcomplete : s.complete = true := by
        unfold Scanner.finish at h
        split at h
        · assumption
        · cases h
      cases hv : value (2 * bs.length + 2) bs with
      | none =>
        have := (value_stuck hv hfuel [] s hrun).complete
        rw [hcomplete] at this
        cases this
      | some p =>
        obtain ⟨v, rest⟩ := p
        obtain ⟨s', hset, hrun'⟩ := run_value hv [] (Nat.zero_le _)
        rw [Scanner.start, hrun'] at hrun
        simp only [List.length_nil, Nat.zero_add] at hrun
        split at hrun
        · next hdepth =>
          refine ⟨v, ?_, hdepth⟩
          cases hs : skipSpace rest with
          | nil => simp [hs]
          | cons c r =>
            obtain ⟨e, he⟩ := run_top_trailing hs
            have hne : rest ≠ [] := fun h0 => by simp [h0, skipSpace] at hs
            obtain ⟨a, as, rfl⟩ := List.exists_cons_of_ne_nil hne
            rw [hset.run_cons, he] at hrun
            cases hrun
        · cases hrun
    · cases h
  · rintro ⟨v, hv, hdepth⟩
    cases hval : value (2 * bs.length + 2) bs with
    | none => simp [hval] at hv
    | some p =>
      obtain ⟨v', rest⟩ := p
      simp only [hval] at hv
      split_ifs at hv with hblank
      obtain rfl := Option.some.inj hv
      obtain ⟨s, hset, hrun⟩ := run_value hval [] (Nat.zero_le _)
      rw [Scanner.start, hrun]
      simp only [List.length_nil, Nat.zero_add, if_pos hdepth]
      cases rest with
      | nil => simp [run_nil, Scanner.finish, hset.complete]
      | cons a as =>
        rcases run_top_blank hblank with hdone | hnil
        · rw [hset.run_cons, hdone]
          rfl
        · cases hnil

/-- The parser returns a value exactly when the grammar reads it from the whole text and it
nests at most `maxDepth` containers deep: the recogniser decides the text, and the reader then
builds the value the grammar reads. -/
theorem parse_eq_ok_iff {bs : List UInt8} {v : Value} :
    parse bs = .ok v ↔ text bs = some v ∧ v.nesting ≤ maxDepth := by
  constructor
  · intro h
    cases hc : check bs with
    | error e =>
      rw [parse_of_check_error bs e hc] at h
      cases h
    | ok u =>
      obtain ⟨w, hw, hdepth⟩ := check_eq_ok_iff.mp hc
      obtain ⟨rest, hval, -⟩ := text_eq_some.mp hw
      simp only [parse, hc, readValue_of_value hval, Except.ok.injEq] at h
      exact h ▸ ⟨hw, hdepth⟩
  · rintro ⟨hv, hdepth⟩
    obtain ⟨rest, hval, -⟩ := text_eq_some.mp hv
    simp [parse, check_eq_ok_iff.mpr ⟨v, hv, hdepth⟩, readValue_of_value hval]

end Text

end TreeCatalog.Json.Grammar
