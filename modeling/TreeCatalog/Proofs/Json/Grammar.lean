import Mathlib
import TreeCatalog.Json.Read
import TreeCatalog.Proofs.Json.Compact

/-! # The grammar of JSON text

JSON text as a parser that checks every byte it reads: the grammar of RFC 8259 over bytes, with
the one liberty the recogniser takes, that a string may hold any byte from U+0020 up, ill-formed
UTF-8 included. A value may be preceded by whitespace, an array or object allows no comma before
its closing bracket, and a number is never followed by a byte that could continue it. The parser
uses its fuel the way the reader does and builds the values the reader builds, so on the text it
accepts the two agree (`readValue_of_value`); what it reads stays read when more text follows
(`value_append`). -/

namespace TreeCatalog.Json

namespace Grammar

/-- The contents of a string after its opening quote, up to its closing quote, and what follows
that quote. A byte from U+0020 up other than the quote and the backslash stands for itself, and a
backslash starts a one-letter escape or `u` and four hexadecimal digits; none when a control byte
or a bad escape comes first, or the text ends. -/
def stringTail : List UInt8 → Option (List UInt8 × List UInt8)
  | [] => none
  | c :: rest =>
    if c == 34 then some ([], rest)
    else if c < 32 then none
    else if c == 92 then
      match rest with
      | e :: more =>
        if isShortEscape e then (stringTail more).map fun (body, after) => (92 :: e :: body, after)
        else if e == 117 then
          match more with
          | a :: b :: d :: f :: more' =>
            if isHex a && isHex b && isHex d && isHex f then
              (stringTail more').map fun (body, after) =>
                (92 :: 117 :: a :: b :: d :: f :: body, after)
            else none
          | _ => none
        else none
      | [] => none
    else (stringTail rest).map fun (body, after) => (c :: body, after)

/-- At least one decimal digit, and what follows the digits. -/
def digitsPart : List UInt8 → Option (List UInt8 × List UInt8)
  | c :: rest =>
    if isDigit c then some (c :: rest.takeWhile isDigit, rest.dropWhile isDigit) else none
  | [] => none

/-- The integer part of a number: `0`, or a digit from `1` on followed by any digits. -/
def intPart : List UInt8 → Option (List UInt8 × List UInt8)
  | 48 :: rest => some ([48], rest)
  | bs => digitsPart bs

/-- An optional fraction: a point and at least one digit. -/
def fracPart : List UInt8 → Option (List UInt8 × List UInt8)
  | 46 :: rest => (digitsPart rest).map fun (ds, after) => (46 :: ds, after)
  | bs => some ([], bs)

/-- An optional exponent: `e` or `E`, an optional sign and at least one digit. -/
def expPart : List UInt8 → Option (List UInt8 × List UInt8)
  | e :: rest =>
    if e == 101 || e == 69 then
      match rest with
      | s :: more =>
        if s == 43 || s == 45 then (digitsPart more).map fun (ds, after) => (e :: s :: ds, after)
        else (digitsPart (s :: more)).map fun (ds, after) => (e :: ds, after)
      | [] => none
    else some ([], e :: rest)
  | [] => some ([], [])

/-- A number without its sign, not followed by a byte that could continue a number. -/
def unsignedNumber (bs : List UInt8) : Option (List UInt8 × List UInt8) :=
  match intPart bs with
  | none => none
  | some (i, r₁) =>
    match fracPart r₁ with
    | none => none
    | some (f, r₂) =>
      match expPart r₂ with
      | none => none
      | some (e, r₃) => if r₃.head?.any isNumberByte then none else some (i ++ f ++ e, r₃)

/-- A number literal and what follows it. -/
def number : List UInt8 → Option (List UInt8 × List UInt8)
  | 45 :: rest => (unsignedNumber rest).map fun (lit, after) => (45 :: lit, after)
  | bs => unsignedNumber bs

/-- The rest of a literal word after its first letter, and what follows the word. -/
def keyword (word bs : List UInt8) : Option (List UInt8) :=
  if word.isPrefixOf bs then some (bs.drop word.length) else none

mutual
/-- One value after optional whitespace, and what follows it; `fuel` bounds the nesting and the
list lengths as it does for the reader. -/
def value : Nat → List UInt8 → Option (Value × List UInt8)
  | 0, _ => none
  | fuel + 1, bs =>
    match skipSpace bs with
    | [] => none
    | c :: rest =>
      if c == 123 then
        (members fuel true (skipSpace rest)).map fun (ms, after) => (.object ms, after)
      else if c == 91 then
        (items fuel true (skipSpace rest)).map fun (vs, after) => (.array vs, after)
      else if c == 34 then
        (stringTail rest).map fun (body, after) => (.string (String.ofList (unescape body)), after)
      else if c == 116 then (keyword [114, 117, 101] rest).map fun after => (.bool true, after)
      else if c == 102 then (keyword [97, 108, 115, 101] rest).map fun after => (.bool false, after)
      else if c == 110 then (keyword [117, 108, 108] rest).map fun after => (.null, after)
      else (number (c :: rest)).map fun (lit, after) => (.number (asciiText lit), after)

/-- The items of an array after its opening bracket (`first`) or after a comma, up to and without
its closing bracket, and what follows that bracket. -/
def items : Nat → Bool → List UInt8 → Option (List Value × List UInt8)
  | 0, _, _ => none
  | fuel + 1, first, bs =>
    match bs with
    | [] => none
    | c :: rest =>
      if c == 93 then (if first then some ([], rest) else none)
      else
        match value fuel (c :: rest) with
        | none => none
        | some (v, after) =>
          match skipSpace after with
          | [] => none
          | d :: more =>
            if d == 44 then (items fuel false (skipSpace more)).map fun (vs, r) => (v :: vs, r)
            else if d == 93 then some ([v], more)
            else none

/-- The members of an object after its opening brace (`first`) or after a comma, up to and
without its closing brace, and what follows that brace. -/
def members : Nat → Bool → List UInt8 → Option (List (String × Value) × List UInt8)
  | 0, _, _ => none
  | fuel + 1, first, bs =>
    match bs with
    | [] => none
    | c :: rest =>
      if c == 125 then (if first then some ([], rest) else none)
      else if c == 34 then
        match stringTail rest with
        | none => none
        | some (body, after) =>
          match skipSpace after with
          | [] => none
          | d :: rest₂ =>
            if d == 58 then
              match value fuel rest₂ with
              | none => none
              | some (v, after₂) =>
                match skipSpace after₂ with
                | [] => none
                | e :: rest₃ =>
                  if e == 44 then (members fuel false (skipSpace rest₃)).map fun (ms, r) =>
                    ((String.ofList (unescape body), v) :: ms, r)
                  else if e == 125 then some ([(String.ofList (unescape body), v)], rest₃)
                  else none
            else none
      else none
end

section Strings

/-- What a string's contents read up to the closing quote: the bytes before the quote, and that
same cut whatever text follows; the reader cuts the contents at the same quote. -/
theorem stringTail_some {bs body after : List UInt8} (h : stringTail bs = some (body, after)) :
    bs = body ++ 34 :: after ∧ stringBody bs = (body, after) ∧
      ∀ more, stringTail (bs ++ more) = some (body, after ++ more) := by
  fun_induction stringTail bs generalizing body after with
  | case1 => simp at h
  | case2 c rest hq =>
    obtain ⟨rfl, rfl⟩ := Prod.mk.inj (Option.some.inj h).symm
    have hc : c = 34 := by simpa using hq
    subst hc
    exact ⟨rfl, rfl, fun _ => by rw [List.cons_append, stringTail.eq_def]; simp⟩
  | case4 c hq hctl hb e more hshort ih =>
    obtain ⟨⟨b, a⟩, hrest, he⟩ := Option.map_eq_some_iff.mp h
    obtain ⟨rfl, rfl⟩ := Prod.mk.inj he
    obtain ⟨hsplit, hbody, hmore⟩ := ih hrest
    have hc : c = 92 := by simpa using hb
    subst hc
    refine ⟨by simp [hsplit], by simp [stringBody, hbody], fun more' => ?_⟩
    rw [List.cons_append, List.cons_append, stringTail.eq_def]
    simp [hshort, hmore]
  | case5 c hq hctl hb e hshort hu a b' d f more hhex ih =>
    obtain ⟨⟨b, a'⟩, hrest, he⟩ := Option.map_eq_some_iff.mp h
    obtain ⟨rfl, rfl⟩ := Prod.mk.inj he
    obtain ⟨hsplit, hbody, hmore⟩ := ih hrest
    have hc : c = 92 := by simpa using hb
    have he : e = 117 := by simpa using hu
    subst hc he
    simp only [Bool.and_eq_true] at hhex
    obtain ⟨⟨⟨ha, hb'⟩, hd⟩, hf⟩ := hhex
    refine ⟨by simp [hsplit], ?_, fun more' => ?_⟩
    · simp [stringBody, stringBody_cons (isHex_ne ha).1 (isHex_ne ha).2,
        stringBody_cons (isHex_ne hb').1 (isHex_ne hb').2,
        stringBody_cons (isHex_ne hd).1 (isHex_ne hd).2,
        stringBody_cons (isHex_ne hf).1 (isHex_ne hf).2, hbody]
    · rw [List.cons_append, List.cons_append, stringTail.eq_def]
      simp [hshort, ha, hb', hd, hf, hmore]
  | case10 c rest hq hctl hb ih =>
    obtain ⟨⟨b, a⟩, hrest, he⟩ := Option.map_eq_some_iff.mp h
    obtain ⟨rfl, rfl⟩ := Prod.mk.inj he
    obtain ⟨hsplit, hbody, hmore⟩ := ih hrest
    have h34 : c ≠ 34 := by simpa using hq
    have h92 : c ≠ 92 := by simpa using hb
    refine ⟨by simp [hsplit], by simp [stringBody_cons h34 h92, hbody], fun more => ?_⟩
    rw [List.cons_append, stringTail.eq_def]
    simp [hq, hctl, hb, hmore]
  | _ => simp at h

end Strings

section Numbers

/-! Each part of a number is a run of number bytes cut where the part ends; the number as a whole
stops before a byte that could continue it, so the reader's run of number bytes is the number. -/

variable {bs lit rest more : List UInt8}

/-- A run of bytes each satisfying `p`, followed by a byte that does not, is exactly the run
`takeWhile` takes. -/
theorem span_append {p : UInt8 → Bool} {xs ys : List UInt8} (hxs : ∀ b ∈ xs, p b = true)
    (hys : ∀ b ∈ ys.head?, p b = false) :
    (xs ++ ys).takeWhile p = xs ∧ (xs ++ ys).dropWhile p = ys := by
  have hstop : ys.takeWhile p = [] ∧ ys.dropWhile p = ys := by
    cases ys with
    | nil => simp
    | cons y ys =>
      have hy := hys y rfl
      simp [List.takeWhile_cons_of_neg, List.dropWhile_cons_of_neg, hy]
  rw [List.takeWhile_append_of_pos hxs, List.dropWhile_append_of_pos hxs, hstop.1, hstop.2,
    List.append_nil]
  exact ⟨rfl, rfl⟩

theorem head?_append_stop {p : UInt8 → Bool} {xs ys : List UInt8}
    (hxs : ∀ b ∈ xs.head?, p b = false) (hys : xs = [] → ∀ b ∈ ys.head?, p b = false) :
    ∀ b ∈ (xs ++ ys).head?, p b = false := by
  cases xs with
  | nil => simpa using hys rfl
  | cons x xs => simpa using hxs

theorem isNumberByte_of_isDigit {b : UInt8} (h : isDigit b = true) : isNumberByte b = true := by
  simp [isNumberByte, h]

theorem digitsPart_some {ds r : List UInt8} (h : digitsPart bs = some (ds, r)) :
    bs = ds ++ r ∧ (∃ d ds', ds = d :: ds' ∧ isDigit d = true) ∧ (∀ b ∈ ds, isDigit b = true) ∧
      ∀ b ∈ r.head?, isDigit b = false := by
  cases bs with
  | nil => simp [digitsPart] at h
  | cons c cs =>
    simp only [digitsPart] at h
    split_ifs at h with hc
    obtain ⟨rfl, rfl⟩ := Prod.mk.inj (Option.some.inj h)
    refine ⟨by simp, ⟨c, _, rfl, hc⟩, ?_, ?_⟩
    · intro b hb
      rcases List.mem_cons.mp hb with rfl | hb
      · exact hc
      · exact List.mem_takeWhile_imp hb
    · intro b hb
      have hnot := List.head?_dropWhile_not isDigit cs
      rw [Option.mem_def.mp hb] at hnot
      exact hnot

theorem digitsPart_append {ds r : List UInt8} (h : digitsPart bs = some (ds, r))
    (hm : r = [] → ∀ b ∈ more.head?, isDigit b = false) :
    digitsPart (bs ++ more) = some (ds, r ++ more) := by
  obtain ⟨rfl, ⟨d, ds, rfl, hd⟩, hall, hstop⟩ := digitsPart_some h
  have hspan := span_append (fun b hb => hall b (List.mem_cons_of_mem d hb))
    (head?_append_stop hstop hm)
  simp only [List.cons_append, List.append_assoc, digitsPart, hd, if_true, hspan.1, hspan.2]

theorem intPart_some {i r : List UInt8} (h : intPart bs = some (i, r)) :
    bs = i ++ r ∧ (∃ d i', i = d :: i' ∧ isDigit d = true) ∧ ∀ b ∈ i, isDigit b = true := by
  unfold intPart at h
  split at h
  · obtain ⟨rfl, rfl⟩ := Prod.mk.inj (Option.some.inj h)
    exact ⟨rfl, ⟨48, [], rfl, by decide⟩, by simp; decide⟩
  · obtain ⟨hbs, hhead, hall, -⟩ := digitsPart_some h
    exact ⟨hbs, hhead, hall⟩

theorem intPart_append {i r : List UInt8} (h : intPart bs = some (i, r))
    (hm : r = [] → ∀ b ∈ more.head?, isNumberByte b = false) :
    intPart (bs ++ more) = some (i, r ++ more) := by
  unfold intPart at h
  split at h
  · obtain ⟨rfl, rfl⟩ := Prod.mk.inj (Option.some.inj h)
    rfl
  · next h48 =>
    obtain ⟨hbs, ⟨d, ds, rfl, -⟩, -, hstop⟩ := digitsPart_some h
    have hdigit : r = [] → ∀ b ∈ more.head?, isDigit b = false := fun hr b hb => by
      have := hm hr b hb
      simp only [isNumberByte, Bool.or_eq_false_iff] at this
      exact this.1.1.1.1.1
    have happ := digitsPart_append h hdigit
    subst hbs
    have hne : d ≠ 48 := fun hd => h48 (ds ++ r) (by rw [hd]; rfl)
    rw [intPart.eq_def]
    split
    · next rest heq => simp only [List.cons_append, List.cons.injEq] at heq; exact absurd heq.1 hne
    · exact happ

theorem fracPart_some {f r : List UInt8} (h : fracPart bs = some (f, r)) :
    bs = f ++ r ∧ ∀ b ∈ f, isNumberByte b = true := by
  unfold fracPart at h
  split at h
  · obtain ⟨⟨ds, r'⟩, hds, he⟩ := Option.map_eq_some_iff.mp h
    obtain ⟨rfl, rfl⟩ := Prod.mk.inj he
    obtain ⟨hbs, -, hall, -⟩ := digitsPart_some hds
    refine ⟨by simp [hbs], ?_⟩
    intro b hb
    rcases List.mem_cons.mp hb with rfl | hb
    · decide
    · exact isNumberByte_of_isDigit (hall b hb)
  · obtain ⟨rfl, rfl⟩ := Prod.mk.inj (Option.some.inj h)
    simp

theorem fracPart_append {f r : List UInt8} (h : fracPart bs = some (f, r))
    (hm : r = [] → ∀ b ∈ more.head?, isNumberByte b = false) :
    fracPart (bs ++ more) = some (f, r ++ more) := by
  unfold fracPart at h
  split at h
  · next rest =>
    obtain ⟨⟨ds, r'⟩, hds, he⟩ := Option.map_eq_some_iff.mp h
    obtain ⟨rfl, rfl⟩ := Prod.mk.inj he
    have hdigit : r' = [] → ∀ b ∈ more.head?, isDigit b = false := fun hr b hb => by
      have := hm hr b hb
      simp only [isNumberByte, Bool.or_eq_false_iff] at this
      exact this.1.1.1.1.1
    simp [fracPart, digitsPart_append hds hdigit]
  · next h46 =>
    obtain ⟨rfl, rfl⟩ := Prod.mk.inj (Option.some.inj h)
    cases bs with
    | nil =>
      cases more with
      | nil => rfl
      | cons m ms =>
        have hm46 : m ≠ 46 := by
          rintro rfl
          exact absurd (hm rfl 46 rfl) (by decide)
        rw [fracPart.eq_def]
        split
        · next heq => simp only [List.nil_append, List.cons.injEq] at heq; exact absurd heq.1 hm46
        · rfl
    | cons b bs =>
      have hb46 : b ≠ 46 := fun hb => h46 bs (by rw [hb])
      rw [fracPart.eq_def]
      split
      · next heq => simp only [List.cons_append, List.cons.injEq] at heq; exact absurd heq.1 hb46
      · rfl

theorem expPart_some {x r : List UInt8} (h : expPart bs = some (x, r)) :
    bs = x ++ r ∧ ∀ b ∈ x, isNumberByte b = true := by
  cases bs with
  | nil =>
    obtain ⟨rfl, rfl⟩ := Prod.mk.inj (Option.some.inj h).symm
    simp
  | cons e cs =>
    simp only [expPart] at h
    split_ifs at h with he
    · have hmark : isNumberByte e = true := by
        simp only [Bool.or_eq_true, beq_iff_eq] at he
        rcases he with rfl | rfl <;> decide
      cases cs with
      | nil => simp at h
      | cons c more =>
        simp only at h
        split_ifs at h with hc
        · obtain ⟨⟨ds, r'⟩, hds, hx⟩ := Option.map_eq_some_iff.mp h
          obtain ⟨rfl, rfl⟩ := Prod.mk.inj hx
          obtain ⟨hmore, -, hall, -⟩ := digitsPart_some hds
          have hsign : isNumberByte c = true := by
            simp only [Bool.or_eq_true, beq_iff_eq] at hc
            rcases hc with rfl | rfl <;> decide
          refine ⟨by simp [hmore], ?_⟩
          intro b hb
          simp only [List.mem_cons] at hb
          rcases hb with rfl | rfl | hb
          · exact hmark
          · exact hsign
          · exact isNumberByte_of_isDigit (hall b hb)
        · obtain ⟨⟨ds, r'⟩, hds, hx⟩ := Option.map_eq_some_iff.mp h
          obtain ⟨rfl, rfl⟩ := Prod.mk.inj hx
          obtain ⟨hmore, -, hall, -⟩ := digitsPart_some hds
          refine ⟨by simp [hmore], ?_⟩
          intro b hb
          rcases List.mem_cons.mp hb with rfl | hb
          · exact hmark
          · exact isNumberByte_of_isDigit (hall b hb)
    · obtain ⟨rfl, rfl⟩ := Prod.mk.inj (Option.some.inj h).symm
      simp

theorem isDigit_false_of_isNumberByte_false {b : UInt8} (h : isNumberByte b = false) :
    isDigit b = false := by
  simp only [isNumberByte, Bool.or_eq_false_iff] at h
  exact h.1.1.1.1.1

theorem expPart_append {x r : List UInt8} (h : expPart bs = some (x, r))
    (hm : r = [] → ∀ b ∈ more.head?, isNumberByte b = false) :
    expPart (bs ++ more) = some (x, r ++ more) := by
  have hdigit : r = [] → ∀ b ∈ more.head?, isDigit b = false :=
    fun hr b hb => isDigit_false_of_isNumberByte_false (hm hr b hb)
  cases bs with
  | nil =>
    obtain ⟨rfl, rfl⟩ := Prod.mk.inj (Option.some.inj h).symm
    cases more with
    | nil => rfl
    | cons m ms =>
      have hmark : ¬ (m == 101 || m == 69) = true := by
        have := hm rfl m rfl
        simp only [isNumberByte, Bool.or_eq_false_iff] at this
        simp [this.1.2, this.2]
      simp [expPart, hmark]
  | cons e cs =>
    simp only [expPart] at h
    split_ifs at h with he
    · cases cs with
      | nil => simp at h
      | cons c cs =>
        simp only at h
        split_ifs at h with hc
        · obtain ⟨⟨ds, r'⟩, hds, hx⟩ := Option.map_eq_some_iff.mp h
          obtain ⟨rfl, rfl⟩ := Prod.mk.inj hx
          simp [expPart, he, hc, digitsPart_append hds hdigit]
        · obtain ⟨⟨ds, r'⟩, hds, hx⟩ := Option.map_eq_some_iff.mp h
          obtain ⟨rfl, rfl⟩ := Prod.mk.inj hx
          have happ := digitsPart_append hds hdigit
          simp only [List.cons_append] at happ
          simp [expPart, he, hc, happ]
    · obtain ⟨rfl, rfl⟩ := Prod.mk.inj (Option.some.inj h).symm
      simp [expPart, he]

/-- A number without its sign is read part by part, and refused when a number byte follows. -/
theorem unsignedNumber_eq_some :
    unsignedNumber bs = some (lit, rest) ↔ ∃ i r₁ f r₂ e, intPart bs = some (i, r₁) ∧
      fracPart r₁ = some (f, r₂) ∧ expPart r₂ = some (e, rest) ∧
      (∀ b ∈ rest.head?, isNumberByte b = false) ∧ lit = i ++ f ++ e := by
  have hstop : ∀ r : List UInt8, r.head?.any isNumberByte = false ↔
      ∀ b ∈ r.head?, isNumberByte b = false := fun r => by cases r <;> simp
  unfold unsignedNumber
  constructor
  · intro h
    cases hi : intPart bs with
    | none => simp [hi] at h
    | some ir =>
      obtain ⟨i, r₁⟩ := ir
      cases hf : fracPart r₁ with
      | none => simp [hi, hf] at h
      | some fr =>
        obtain ⟨f, r₂⟩ := fr
        cases he : expPart r₂ with
        | none => simp [hi, hf, he] at h
        | some er =>
          obtain ⟨e, r₃⟩ := er
          simp only [hi, hf, he] at h
          split_ifs at h with hnum
          obtain ⟨rfl, rfl⟩ := Prod.mk.inj (Option.some.inj h)
          exact ⟨i, r₁, f, r₂, e, rfl, hf, he, (hstop _).mp (by simpa using hnum), rfl⟩
  · rintro ⟨i, r₁, f, r₂, e, hi, hf, he, hnum, rfl⟩
    simp [hi, hf, he, (hstop rest).mpr hnum]

theorem unsignedNumber_some (h : unsignedNumber bs = some (lit, rest)) :
    bs = lit ++ rest ∧ (∃ d l, lit = d :: l ∧ isDigit d = true) ∧
      (∀ b ∈ lit, isNumberByte b = true) ∧ ∀ b ∈ rest.head?, isNumberByte b = false := by
  obtain ⟨i, r₁, f, r₂, e, hi, hf, he, hnum, rfl⟩ := unsignedNumber_eq_some.mp h
  obtain ⟨hbs, ⟨d, i', rfl, hd⟩, hidig⟩ := intPart_some hi
  obtain ⟨hr₁, hfnum⟩ := fracPart_some hf
  obtain ⟨hr₂, henum⟩ := expPart_some he
  refine ⟨by simp [hbs, hr₁, hr₂], ⟨d, _, rfl, hd⟩, ?_, hnum⟩
  intro b hb
  simp only [List.mem_append] at hb
  rcases hb with (hb | hb) | hb
  · exact isNumberByte_of_isDigit (hidig b hb)
  · exact hfnum b hb
  · exact henum b hb

theorem unsignedNumber_append (h : unsignedNumber bs = some (lit, rest))
    (hm : ∀ b ∈ (rest ++ more).head?, isNumberByte b = false) :
    unsignedNumber (bs ++ more) = some (lit, rest ++ more) := by
  obtain ⟨i, r₁, f, r₂, e, hi, hf, he, -, rfl⟩ := unsignedNumber_eq_some.mp h
  have hrest : rest = [] → ∀ b ∈ more.head?, isNumberByte b = false := by
    rintro rfl
    simpa using hm
  -- a part that ends the text leaves nothing for the parts after it
  have hr₂ : r₂ = [] → rest = [] := fun h0 => by
    have := (expPart_some he).1
    rw [h0] at this
    exact (List.append_eq_nil_iff.mp this.symm).2
  have hr₁ : r₁ = [] → r₂ = [] := fun h0 => by
    have := (fracPart_some hf).1
    rw [h0] at this
    exact (List.append_eq_nil_iff.mp this.symm).2
  exact unsignedNumber_eq_some.mpr ⟨i, r₁ ++ more, f, r₂ ++ more, e,
    intPart_append hi (fun h0 => hrest (hr₂ (hr₁ h0))),
    fracPart_append hf (fun h0 => hrest (hr₂ h0)), expPart_append he hrest, hm, rfl⟩

theorem number_some (h : number bs = some (lit, rest)) :
    bs = lit ++ rest ∧ (∃ d l, lit = d :: l ∧ (d = 45 ∨ isDigit d = true)) ∧
      (∀ b ∈ lit, isNumberByte b = true) ∧ ∀ b ∈ rest.head?, isNumberByte b = false := by
  unfold number at h
  split at h
  · obtain ⟨⟨l, r⟩, hl, hx⟩ := Option.map_eq_some_iff.mp h
    obtain ⟨rfl, rfl⟩ := Prod.mk.inj hx
    obtain ⟨hbs, -, hall, hstop⟩ := unsignedNumber_some hl
    refine ⟨by simp [hbs], ⟨45, l, rfl, .inl rfl⟩, ?_, hstop⟩
    intro b hb
    rcases List.mem_cons.mp hb with rfl | hb
    · decide
    · exact hall b hb
  · obtain ⟨hbs, ⟨d, l, rfl, hd⟩, hall, hstop⟩ := unsignedNumber_some h
    exact ⟨hbs, ⟨d, l, rfl, .inr hd⟩, hall, hstop⟩

theorem number_append (h : number bs = some (lit, rest))
    (hm : ∀ b ∈ (rest ++ more).head?, isNumberByte b = false) :
    number (bs ++ more) = some (lit, rest ++ more) := by
  unfold number at h
  split at h
  · obtain ⟨⟨l, r⟩, hl, hx⟩ := Option.map_eq_some_iff.mp h
    obtain ⟨rfl, rfl⟩ := Prod.mk.inj hx
    simp [number, unsignedNumber_append hl hm]
  · next h45 =>
    obtain ⟨hbs, ⟨d, l, rfl, hd⟩, -, -⟩ := unsignedNumber_some h
    have hne : d ≠ 45 := by
      rintro rfl
      exact h45 (l ++ rest) (by rw [hbs]; rfl)
    subst hbs
    rw [number.eq_def]
    split
    · next heq => simp only [List.cons_append, List.cons.injEq] at heq; exact absurd heq.1 hne
    · exact unsignedNumber_append h hm

/-- The number is the run of number bytes at the front, as the reader takes it. -/
theorem number_span (h : number bs = some (lit, rest)) :
    bs.takeWhile isNumberByte = lit ∧ bs.dropWhile isNumberByte = rest := by
  obtain ⟨rfl, -, hall, hstop⟩ := number_some h
  exact span_append hall hstop

end Numbers

section Steps

/-! What one level of the grammar can read, said once for each of its three functions; every
later induction takes its cases from these. -/

variable {fuel : Nat} {first : Bool} {bs rest : List UInt8}

theorem keyword_eq_some {word : List UInt8} : keyword word bs = some rest ↔ bs = word ++ rest := by
  unfold keyword
  constructor
  · intro h
    split_ifs at h with hp
    obtain ⟨t, rfl⟩ := List.isPrefixOf_iff_prefix.mp hp
    simp only [List.drop_left, Option.some.injEq] at h
    rw [h]
  · rintro rfl
    rw [if_pos (List.isPrefixOf_iff_prefix.mpr (List.prefix_append word rest)), List.drop_left]

theorem number_head {c : UInt8} {r lit : List UInt8} (h : number (c :: r) = some (lit, rest)) :
    c = 45 ∨ isDigit c = true := by
  obtain ⟨hbs, ⟨d, l, rfl, hd⟩, -, -⟩ := number_some h
  simp only [List.cons_append, List.cons.injEq] at hbs
  rw [hbs.1]
  exact hd

theorem value_nil : value fuel [] = none := by
  cases fuel <;> rfl

theorem items_nil : items fuel first [] = none := by
  cases fuel <;> rfl

theorem members_nil : members fuel first [] = none := by
  cases fuel <;> rfl

theorem value_succ_eq_some {v : Value} :
    value (fuel + 1) bs = some (v, rest) ↔ ∃ c r, skipSpace bs = c :: r ∧
      ((c = 123 ∧ ∃ ms, members fuel true (skipSpace r) = some (ms, rest) ∧ v = .object ms) ∨
       (c = 91 ∧ ∃ vs, items fuel true (skipSpace r) = some (vs, rest) ∧ v = .array vs) ∨
       (c = 34 ∧ ∃ body, stringTail r = some (body, rest) ∧
          v = .string (String.ofList (unescape body))) ∨
       (c = 116 ∧ keyword [114, 117, 101] r = some rest ∧ v = .bool true) ∨
       (c = 102 ∧ keyword [97, 108, 115, 101] r = some rest ∧ v = .bool false) ∨
       (c = 110 ∧ keyword [117, 108, 108] r = some rest ∧ v = .null) ∨
       ∃ lit, number (c :: r) = some (lit, rest) ∧ v = .number (asciiText lit)) := by
  rw [value]
  cases hs : skipSpace bs with
  | nil => simp
  | cons c r =>
    -- a byte that starts a container, a string or a word starts no number
    have hnum : c ≠ 45 → isDigit c = false → ∀ lit, number (c :: r) ≠ some (lit, rest) :=
      fun h45 hd lit h => by rcases number_head h with h | h <;> simp_all
    simp only [List.cons.injEq, beq_iff_eq]
    split_ifs with h1 h2 h3 h4 h5 h6
    · subst h1
      simp [hnum (by decide) (by decide), eq_comm]
    · subst h2
      simp [hnum (by decide) (by decide), eq_comm]
    · subst h3
      simp [hnum (by decide) (by decide), eq_comm]
    · subst h4
      simp [hnum (by decide) (by decide), eq_comm]
    · subst h5
      simp [hnum (by decide) (by decide), eq_comm]
    · subst h6
      simp [hnum (by decide) (by decide), eq_comm]
    · simp [h1, h2, h3, h4, h5, h6, eq_comm]

/-- A value starts, after whitespace, with a brace, a bracket, a quote, the first letter of a
keyword, a minus sign or a digit. -/
theorem value_head {v : Value} (h : value fuel bs = some (v, rest)) :
    ∃ c r, skipSpace bs = c :: r ∧ (c = 123 ∨ c = 91 ∨ c = 34 ∨ c = 116 ∨ c = 102 ∨ c = 110 ∨
      c = 45 ∨ isDigit c = true) := by
  cases fuel with
  | zero => simp [value] at h
  | succ fuel =>
    obtain ⟨c, r, hs, hp⟩ := value_succ_eq_some.mp h
    refine ⟨c, r, hs, ?_⟩
    rcases hp with ⟨hc, -⟩ | ⟨hc, -⟩ | ⟨hc, -⟩ | ⟨hc, -⟩ | ⟨hc, -⟩ | ⟨hc, -⟩ | ⟨lit, hn, -⟩
    · exact .inl hc
    · exact .inr (.inl hc)
    · exact .inr (.inr (.inl hc))
    · exact .inr (.inr (.inr (.inl hc)))
    · exact .inr (.inr (.inr (.inr (.inl hc))))
    · exact .inr (.inr (.inr (.inr (.inr (.inl hc)))))
    · exact .inr (.inr (.inr (.inr (.inr (.inr (number_head hn))))))

theorem items_succ_eq_some {vs : List Value} :
    items (fuel + 1) first bs = some (vs, rest) ↔
      (first = true ∧ bs = 93 :: rest ∧ vs = []) ∨
      ∃ v after, bs.head? ≠ some 93 ∧ value fuel bs = some (v, after) ∧
        ((∃ more vs', skipSpace after = 44 :: more ∧
            items fuel false (skipSpace more) = some (vs', rest) ∧ vs = v :: vs') ∨
          (skipSpace after = 93 :: rest ∧ vs = [v])) := by
  constructor
  · intro h
    cases bs with
    | nil => simp [items] at h
    | cons c r =>
      rw [items] at h
      by_cases h93 : c = 93
      · subst h93
        cases first
        · simp at h
        · obtain ⟨rfl, rfl⟩ := Prod.mk.inj (Option.some.inj (by simpa using h))
          exact .inl ⟨rfl, rfl, rfl⟩
      · simp only [beq_iff_eq, h93, if_false] at h
        cases hv : value fuel (c :: r) with
        | none => simp [hv] at h
        | some p =>
          obtain ⟨v, after⟩ := p
          simp only [hv] at h
          refine .inr ⟨v, after, by simpa using h93, rfl, ?_⟩
          cases hs : skipSpace after with
          | nil => simp [hs] at h
          | cons d more =>
            simp only [hs] at h
            split_ifs at h with h44 h93'
            · subst h44
              obtain ⟨⟨vs', r'⟩, hi, he⟩ := Option.map_eq_some_iff.mp h
              obtain ⟨rfl, rfl⟩ := Prod.mk.inj he
              exact .inl ⟨more, vs', rfl, hi, rfl⟩
            · subst h93'
              obtain ⟨rfl, rfl⟩ := Prod.mk.inj (Option.some.inj h)
              exact .inr ⟨rfl, rfl⟩
  · rintro (⟨rfl, rfl, rfl⟩ | ⟨v, after, hne, hv, hsep⟩)
    · rfl
    · cases bs with
      | nil => simp [value_nil] at hv
      | cons c r =>
        have h93 : c ≠ 93 := fun h => hne (by rw [h]; rfl)
        rcases hsep with ⟨more, vs', hs, hi, rfl⟩ | ⟨hs, rfl⟩
        · simp [items, h93, hv, hs, hi]
        · simp [items, h93, hv, hs]

theorem members_succ_eq_some {ms : List (String × Value)} :
    members (fuel + 1) first bs = some (ms, rest) ↔
      (first = true ∧ bs = 125 :: rest ∧ ms = []) ∨
      ∃ r body after r₂ v after₂, bs = 34 :: r ∧ stringTail r = some (body, after) ∧
        skipSpace after = 58 :: r₂ ∧ value fuel r₂ = some (v, after₂) ∧
        ((∃ r₃ ms', skipSpace after₂ = 44 :: r₃ ∧
            members fuel false (skipSpace r₃) = some (ms', rest) ∧
            ms = (String.ofList (unescape body), v) :: ms') ∨
          (skipSpace after₂ = 125 :: rest ∧ ms = [(String.ofList (unescape body), v)])) := by
  constructor
  · intro h
    cases bs with
    | nil => simp [members] at h
    | cons c r =>
      rw [members] at h
      by_cases h125 : c = 125
      · subst h125
        cases first
        · simp at h
        · obtain ⟨rfl, rfl⟩ := Prod.mk.inj (Option.some.inj (by simpa using h))
          exact .inl ⟨rfl, rfl, rfl⟩
      · by_cases h34 : c = 34
        · subst h34
          simp only [beq_iff_eq, h125, if_false, if_true] at h
          cases ht : stringTail r with
          | none => simp [ht] at h
          | some p =>
            obtain ⟨body, after⟩ := p
            simp only [ht] at h
            cases hs : skipSpace after with
            | nil => simp [hs] at h
            | cons d r₂ =>
              simp only [hs] at h
              split_ifs at h with h58
              subst h58
              cases hv : value fuel r₂ with
              | none => simp [hv] at h
              | some q =>
                obtain ⟨v, after₂⟩ := q
                simp only [hv] at h
                refine .inr ⟨r, body, after, r₂, v, after₂, rfl, ht, hs, hv, ?_⟩
                cases hs₂ : skipSpace after₂ with
                | nil => simp [hs₂] at h
                | cons e r₃ =>
                  simp only [hs₂] at h
                  split_ifs at h with h44 h125'
                  · subst h44
                    obtain ⟨⟨ms', r'⟩, hm, he⟩ := Option.map_eq_some_iff.mp h
                    obtain ⟨rfl, rfl⟩ := Prod.mk.inj he
                    exact .inl ⟨r₃, ms', rfl, hm, rfl⟩
                  · subst h125'
                    obtain ⟨rfl, rfl⟩ := Prod.mk.inj (Option.some.inj h)
                    exact .inr ⟨rfl, rfl⟩
        · simp [h125, h34] at h
  · rintro (⟨rfl, rfl, rfl⟩ | ⟨r, body, after, r₂, v, after₂, rfl, ht, hs, hv, hsep⟩)
    · rfl
    · rcases hsep with ⟨r₃, ms', hs₂, hm, rfl⟩ | ⟨hs₂, rfl⟩
      · simp [members, ht, hs, hv, hs₂, hm]
      · simp [members, ht, hs, hv, hs₂]

end Steps

section Reading

/-! The three functions of the grammar call each other with one unit of fuel less, so each fact
about them is three theorems proved together, by recursion on the fuel. -/

theorem length_skipSpace_le (bs : List UInt8) : (skipSpace bs).length ≤ bs.length :=
  List.length_dropWhile_le _ _

theorem length_lt_of_skipSpace {bs r : List UInt8} {c : UInt8} (h : skipSpace bs = c :: r) :
    r.length < bs.length := by
  have := length_skipSpace_le bs
  rw [h, List.length_cons] at this
  omega

theorem stringTail_length {r body rest : List UInt8} (h : stringTail r = some (body, rest)) :
    rest.length < r.length := by
  have := congrArg List.length (stringTail_some h).1
  simp only [List.length_append, List.length_cons] at this
  omega

theorem keyword_length {word r rest : List UInt8} (h : keyword word r = some rest) :
    rest.length ≤ r.length := by
  have := congrArg List.length (keyword_eq_some.mp h)
  simp only [List.length_append] at this
  omega

theorem number_length {bs lit rest : List UInt8} (h : number bs = some (lit, rest)) :
    rest.length < bs.length := by
  obtain ⟨hbs, ⟨d, l, rfl, -⟩, -, -⟩ := number_some h
  have := congrArg List.length hbs
  simp only [List.length_append, List.length_cons] at this
  omega

mutual
/-- A value takes at least one byte. -/
theorem value_length {fuel : Nat} {bs : List UInt8} {v : Value} {rest : List UInt8}
    (h : value fuel bs = some (v, rest)) : rest.length < bs.length := by
  cases fuel with
  | zero => simp [value] at h
  | succ fuel =>
    obtain ⟨c, r, hs, h⟩ := value_succ_eq_some.mp h
    have hr := length_lt_of_skipSpace hs
    have hsr := length_skipSpace_le r
    rcases h with ⟨-, ms, h, -⟩ | ⟨-, vs, h, -⟩ | ⟨-, body, h, -⟩ | ⟨-, h, -⟩ | ⟨-, h, -⟩ |
      ⟨-, h, -⟩ | ⟨lit, h, -⟩
    · have := members_length h
      omega
    · have := items_length h
      omega
    · have := stringTail_length h
      omega
    · have := keyword_length h
      omega
    · have := keyword_length h
      omega
    · have := keyword_length h
      omega
    · have := number_length h
      simp only [List.length_cons] at this
      omega
termination_by fuel

/-- Items take at least their closing bracket. -/
theorem items_length {fuel : Nat} {first : Bool} {bs : List UInt8} {vs : List Value}
    {rest : List UInt8} (h : items fuel first bs = some (vs, rest)) : rest.length < bs.length := by
  cases fuel with
  | zero => simp [items] at h
  | succ fuel =>
    rcases items_succ_eq_some.mp h with ⟨-, rfl, -⟩ | ⟨v, after, -, hv, hsep⟩
    · simp
    · have hv := value_length hv
      rcases hsep with ⟨more, vs', hs, hi, -⟩ | ⟨hs, -⟩
      · have := items_length hi
        have := length_lt_of_skipSpace hs
        have := length_skipSpace_le more
        omega
      · have := length_lt_of_skipSpace hs
        omega
termination_by fuel

/-- Members take at least their closing brace. -/
theorem members_length {fuel : Nat} {first : Bool} {bs : List UInt8}
    {ms : List (String × Value)} {rest : List UInt8} (h : members fuel first bs = some (ms, rest)) :
    rest.length < bs.length := by
  cases fuel with
  | zero => simp [members] at h
  | succ fuel =>
    rcases members_succ_eq_some.mp h with ⟨-, rfl, -⟩ |
      ⟨r, body, after, r₂, v, after₂, rfl, ht, hs, hv, hsep⟩
    · simp
    · have := stringTail_length ht
      have := length_lt_of_skipSpace hs
      have := value_length hv
      rcases hsep with ⟨r₃, ms', hs₂, hm, -⟩ | ⟨hs₂, -⟩
      · have := members_length hm
        have := length_lt_of_skipSpace hs₂
        have := length_skipSpace_le r₃
        simp only [List.length_cons]
        omega
      · have := length_lt_of_skipSpace hs₂
        simp only [List.length_cons]
        omega
termination_by fuel
end

mutual
theorem value_fuel_succ {fuel : Nat} {bs : List UInt8} {v : Value} {rest : List UInt8}
    (h : value fuel bs = some (v, rest)) : value (fuel + 1) bs = some (v, rest) := by
  cases fuel with
  | zero => simp [value] at h
  | succ fuel =>
    obtain ⟨c, r, hs, hp⟩ := value_succ_eq_some.mp h
    refine value_succ_eq_some.mpr ⟨c, r, hs, ?_⟩
    rcases hp with ⟨h123, ms, hp, rfl⟩ | ⟨h91, vs, hp, rfl⟩ | hp
    · exact .inl ⟨h123, ms, members_fuel_succ hp, rfl⟩
    · exact .inr (.inl ⟨h91, vs, items_fuel_succ hp, rfl⟩)
    · exact .inr (.inr hp)
termination_by fuel

theorem items_fuel_succ {fuel : Nat} {first : Bool} {bs : List UInt8} {vs : List Value}
    {rest : List UInt8} (h : items fuel first bs = some (vs, rest)) :
    items (fuel + 1) first bs = some (vs, rest) := by
  cases fuel with
  | zero => simp [items] at h
  | succ fuel =>
    refine items_succ_eq_some.mpr ?_
    rcases items_succ_eq_some.mp h with h | ⟨v, after, hne, hv, hsep⟩
    · exact .inl h
    · refine .inr ⟨v, after, hne, value_fuel_succ hv, ?_⟩
      rcases hsep with ⟨more, vs', hs, hi, rfl⟩ | h
      · exact .inl ⟨more, vs', hs, items_fuel_succ hi, rfl⟩
      · exact .inr h
termination_by fuel

theorem members_fuel_succ {fuel : Nat} {first : Bool} {bs : List UInt8}
    {ms : List (String × Value)} {rest : List UInt8} (h : members fuel first bs = some (ms, rest)) :
    members (fuel + 1) first bs = some (ms, rest) := by
  cases fuel with
  | zero => simp [members] at h
  | succ fuel =>
    refine members_succ_eq_some.mpr ?_
    rcases members_succ_eq_some.mp h with h | ⟨r, body, after, r₂, v, after₂, hbs, ht, hs, hv, hsep⟩
    · exact .inl h
    · refine .inr ⟨r, body, after, r₂, v, after₂, hbs, ht, hs, value_fuel_succ hv, ?_⟩
      rcases hsep with ⟨r₃, ms', hs₂, hm, rfl⟩ | h
      · exact .inl ⟨r₃, ms', hs₂, members_fuel_succ hm, rfl⟩
      · exact .inr h
termination_by fuel
end

/-- More fuel reads the same. -/
theorem value_mono {fuel fuel' : Nat} {bs : List UInt8} {v : Value} {rest : List UInt8}
    (h : value fuel bs = some (v, rest)) (hle : fuel ≤ fuel') : value fuel' bs = some (v, rest) := by
  induction hle with
  | refl => exact h
  | step _ ih => exact value_fuel_succ ih

theorem skipSpace_append {bs : List UInt8} (h : skipSpace bs ≠ []) (more : List UInt8) :
    skipSpace (bs ++ more) = skipSpace bs ++ more := by
  have hne : (bs.dropWhile isSpace).isEmpty = false := by
    simpa [skipSpace] using h
  simp only [skipSpace, List.dropWhile_append, hne, Bool.false_eq_true, if_false]

theorem skipSpace_append_of_nil {bs : List UInt8} (h : skipSpace bs = []) (more : List UInt8) :
    skipSpace (bs ++ more) = skipSpace more := by
  simp only [skipSpace] at h ⊢
  simp [List.dropWhile_append, h]

theorem skipSpace_cons_space {c : UInt8} (h : isSpace c = true) (r : List UInt8) :
    skipSpace (c :: r) = skipSpace r := by
  simp [skipSpace, List.dropWhile_cons_of_pos, h]

theorem skipSpace_cons_other {c : UInt8} (h : isSpace c = false) (r : List UInt8) :
    skipSpace (c :: r) = c :: r := by
  simp [skipSpace, List.dropWhile_cons_of_neg, h]

mutual
/-- What the grammar reads stays read when more text follows, unless a number reaches the end and
the text after it could continue it. -/
theorem value_append {fuel : Nat} {bs : List UInt8} {v : Value} {rest : List UInt8}
    (h : value fuel bs = some (v, rest)) (more : List UInt8)
    (hnum : ∀ lit, v = .number lit → rest = [] → ∀ b ∈ more.head?, isNumberByte b = false) :
    value fuel (bs ++ more) = some (v, rest ++ more) := by
  cases fuel with
  | zero => simp [value] at h
  | succ fuel =>
    obtain ⟨c, r, hs, hp⟩ := value_succ_eq_some.mp h
    have hs' : skipSpace (bs ++ more) = c :: (r ++ more) := by
      rw [skipSpace_append (by simp [hs]), hs, List.cons_append]
    refine value_succ_eq_some.mpr ⟨c, r ++ more, hs', ?_⟩
    rcases hp with ⟨h123, ms, hp, rfl⟩ | ⟨h91, vs, hp, rfl⟩ | ⟨h34, body, hp, rfl⟩ |
      ⟨h116, hp, rfl⟩ | ⟨h102, hp, rfl⟩ | ⟨h110, hp, rfl⟩ | ⟨lit, hp, rfl⟩
    · have hne : skipSpace r ≠ [] := fun h0 => by simp [h0, members_nil] at hp
      refine .inl ⟨h123, ms, ?_, rfl⟩
      rw [skipSpace_append hne]
      exact members_append hp more
    · have hne : skipSpace r ≠ [] := fun h0 => by simp [h0, items_nil] at hp
      refine .inr (.inl ⟨h91, vs, ?_, rfl⟩)
      rw [skipSpace_append hne]
      exact items_append hp more
    · exact .inr (.inr (.inl ⟨h34, body, (stringTail_some hp).2.2 more, rfl⟩))
    · refine .inr (.inr (.inr (.inl ⟨h116, ?_, rfl⟩)))
      rw [keyword_eq_some.mp hp, List.append_assoc]
      exact keyword_eq_some.mpr rfl
    · refine .inr (.inr (.inr (.inr (.inl ⟨h102, ?_, rfl⟩))))
      rw [keyword_eq_some.mp hp, List.append_assoc]
      exact keyword_eq_some.mpr rfl
    · refine .inr (.inr (.inr (.inr (.inr (.inl ⟨h110, ?_, rfl⟩)))))
      rw [keyword_eq_some.mp hp, List.append_assoc]
      exact keyword_eq_some.mpr rfl
    · obtain ⟨-, -, -, hstop⟩ := number_some hp
      refine .inr (.inr (.inr (.inr (.inr (.inr ⟨lit, ?_, rfl⟩)))))
      rw [← List.cons_append]
      exact number_append hp (head?_append_stop hstop (hnum _ rfl))
termination_by fuel

theorem items_append {fuel : Nat} {first : Bool} {bs : List UInt8} {vs : List Value}
    {rest : List UInt8} (h : items fuel first bs = some (vs, rest)) (more : List UInt8) :
    items fuel first (bs ++ more) = some (vs, rest ++ more) := by
  cases fuel with
  | zero => simp [items] at h
  | succ fuel =>
    refine items_succ_eq_some.mpr ?_
    rcases items_succ_eq_some.mp h with ⟨hfirst, rfl, rfl⟩ | ⟨v, after, hne, hv, hsep⟩
    · exact .inl ⟨hfirst, rfl, rfl⟩
    · have hbs : bs ≠ [] := fun h0 => by simp [h0, value_nil] at hv
      have hhead : (bs ++ more).head? ≠ some 93 := by
        obtain ⟨b, bs', rfl⟩ := List.exists_cons_of_ne_nil hbs
        simpa using hne
      -- the separator after the item keeps a number item from running on
      have hafter : after ≠ [] := fun h0 => by
        rcases hsep with ⟨_, _, hs, -⟩ | ⟨hs, -⟩ <;> simp [h0, skipSpace] at hs
      have hs' := @skipSpace_append after (fun h0 => by
        rcases hsep with ⟨_, _, hs, -⟩ | ⟨hs, -⟩ <;> simp [h0] at hs) more
      refine .inr ⟨v, after ++ more, hhead,
        value_append hv more (fun _ _ h0 => absurd h0 hafter), ?_⟩
      rcases hsep with ⟨m, vs', hs, hi, rfl⟩ | ⟨hs, rfl⟩
      · have hne' : skipSpace m ≠ [] := fun h0 => by simp [h0, items_nil] at hi
        refine .inl ⟨m ++ more, vs', by rw [hs', hs, List.cons_append], ?_, rfl⟩
        rw [skipSpace_append hne']
        exact items_append hi more
      · exact .inr ⟨by rw [hs', hs, List.cons_append], rfl⟩
termination_by fuel

theorem members_append {fuel : Nat} {first : Bool} {bs : List UInt8}
    {ms : List (String × Value)} {rest : List UInt8} (h : members fuel first bs = some (ms, rest))
    (more : List UInt8) : members fuel first (bs ++ more) = some (ms, rest ++ more) := by
  cases fuel with
  | zero => simp [members] at h
  | succ fuel =>
    refine members_succ_eq_some.mpr ?_
    rcases members_succ_eq_some.mp h with ⟨hfirst, rfl, rfl⟩ |
      ⟨r, body, after, r₂, v, after₂, rfl, ht, hs, hv, hsep⟩
    · exact .inl ⟨hfirst, rfl, rfl⟩
    · have hafter : after₂ ≠ [] := fun h0 => by
        rcases hsep with ⟨_, _, hs, -⟩ | ⟨hs, -⟩ <;> simp [h0, skipSpace] at hs
      have hs₂' := @skipSpace_append after₂ (fun h0 => by
        rcases hsep with ⟨_, _, hs, -⟩ | ⟨hs, -⟩ <;> simp [h0] at hs) more
      refine .inr ⟨r ++ more, body, after ++ more, r₂ ++ more, v, after₂ ++ more, rfl,
        (stringTail_some ht).2.2 more, by rw [skipSpace_append (by simp [hs]), hs,
        List.cons_append], value_append hv more (fun _ _ h0 => absurd h0 hafter), ?_⟩
      rcases hsep with ⟨r₃, ms', hs₂, hm, rfl⟩ | ⟨hs₂, rfl⟩
      · have hne' : skipSpace r₃ ≠ [] := fun h0 => by simp [h0, members_nil] at hm
        refine .inl ⟨r₃ ++ more, ms', by rw [hs₂', hs₂, List.cons_append], ?_, rfl⟩
        rw [skipSpace_append hne']
        exact members_append hm more
      · exact .inr ⟨by rw [hs₂', hs₂, List.cons_append], rfl⟩
termination_by fuel
end

theorem skipSpace_skipSpace (bs : List UInt8) : skipSpace (skipSpace bs) = skipSpace bs := by
  cases hs : skipSpace bs with
  | nil => rfl
  | cons c r =>
    have hc : isSpace c = false := by
      have := List.head?_dropWhile_not isSpace bs
      rwa [← skipSpace, hs] at this
    simp [skipSpace, List.dropWhile_cons_of_neg, hc]

theorem readValue_skipSpace (fuel : Nat) (bs : List UInt8) :
    readValue (fuel + 1) (skipSpace bs) = readValue (fuel + 1) bs := by
  rw [readValue, readValue, skipSpace_skipSpace]

theorem isDigit_iff {c : UInt8} : isDigit c = true ↔ 48 ≤ c.toNat ∧ c.toNat ≤ 57 := by
  simp [isDigit, UInt8.le_iff_toNat_le]

mutual
/-- On the text the grammar accepts, the reader reads the same value and stops at the same place,
with the same fuel. -/
theorem readValue_of_value {fuel : Nat} {bs : List UInt8} {v : Value} {rest : List UInt8}
    (h : value fuel bs = some (v, rest)) : readValue fuel bs = some (v, rest) := by
  cases fuel with
  | zero => simp [value] at h
  | succ fuel =>
    obtain ⟨c, r, hs, hp⟩ := value_succ_eq_some.mp h
    rcases hp with ⟨rfl, ms, hp, rfl⟩ | ⟨rfl, vs, hp, rfl⟩ | ⟨rfl, body, hp, rfl⟩ |
      ⟨rfl, hp, rfl⟩ | ⟨rfl, hp, rfl⟩ | ⟨rfl, hp, rfl⟩ | ⟨lit, hp, rfl⟩
    · rw [readValue, hs]
      simpa using readMembers_of_members hp []
    · rw [readValue, hs]
      simpa using readItems_of_items hp []
    · simp [readValue, hs, (stringTail_some hp).2.1]
    · simp [readValue, hs, keyword_eq_some.mp hp]
    · simp [readValue, hs, keyword_eq_some.mp hp]
    · simp [readValue, hs, keyword_eq_some.mp hp]
    · rw [← readValue_skipSpace, hs]
      have hb : c = 45 ∨ (48 ≤ c.toNat ∧ c.toNat ≤ 57) := (number_head hp).imp_right isDigit_iff.mp
      obtain ⟨htake, hdrop⟩ := number_span hp
      rw [readValue_number_start hb, htake, hdrop]
termination_by fuel

theorem readItems_of_items {fuel : Nat} {first : Bool} {bs : List UInt8} {vs : List Value}
    {rest : List UInt8} (h : items fuel first bs = some (vs, rest)) (acc : List Value) :
    readItems fuel acc bs = some (.array (acc.reverse ++ vs), rest) := by
  cases fuel with
  | zero => simp [items] at h
  | succ fuel =>
    rcases items_succ_eq_some.mp h with ⟨-, rfl, rfl⟩ | ⟨v, after, hne, hv, hsep⟩
    · simp [readItems]
    · have hread := readValue_of_value hv
      cases bs with
      | nil => simp [value_nil] at hv
      | cons c r =>
        have h93 : c ≠ 93 := fun h => hne (by rw [h]; rfl)
        rcases hsep with ⟨more, vs', hs, hi, rfl⟩ | ⟨hs, rfl⟩
        · simp [readItems, h93, hread, hs, readItems_of_items hi (v :: acc)]
        · simp [readItems, h93, hread, hs]
termination_by fuel

theorem readMembers_of_members {fuel : Nat} {first : Bool} {bs : List UInt8}
    {ms : List (String × Value)} {rest : List UInt8} (h : members fuel first bs = some (ms, rest))
    (acc : List (String × Value)) :
    readMembers fuel acc bs = some (.object (acc.reverse ++ ms), rest) := by
  cases fuel with
  | zero => simp [members] at h
  | succ fuel =>
    rcases members_succ_eq_some.mp h with ⟨-, rfl, rfl⟩ |
      ⟨r, body, after, r₂, v, after₂, rfl, ht, hs, hv, hsep⟩
    · simp [readMembers]
    · have hread := readValue_of_value hv
      have hbody := (stringTail_some ht).2.1
      rcases hsep with ⟨r₃, ms', hs₂, hm, rfl⟩ | ⟨hs₂, rfl⟩
      · simp [readMembers, hbody, hs, hread, hs₂,
          readMembers_of_members hm ((String.ofList (unescape body), v) :: acc)]
      · simp [readMembers, hbody, hs, hread, hs₂]
termination_by fuel
end

end Reading

/-- The value of a JSON text: one value with only whitespace around it. -/
def text (bs : List UInt8) : Option Value :=
  match value (2 * bs.length + 2) bs with
  | some (v, rest) => if skipSpace rest = [] then some v else none
  | none => none

theorem text_eq_some {bs : List UInt8} {v : Value} :
    text bs = some v ↔ ∃ rest, value (2 * bs.length + 2) bs = some (v, rest) ∧ skipSpace rest = [] := by
  unfold text
  cases hv : value (2 * bs.length + 2) bs with
  | none => simp
  | some p =>
    obtain ⟨v', rest⟩ := p
    by_cases hb : skipSpace rest = []
    · simp [hb]
    · simp [hb]

/-- The grammar reads a value from what follows leading whitespace. -/
theorem value_skipSpace (fuel : Nat) (bs : List UInt8) :
    value (fuel + 1) (skipSpace bs) = value (fuel + 1) bs := by
  rw [value, value, skipSpace_skipSpace]

/-- A value that starts with a brace is an object. -/
theorem value_brace {fuel : Nat} {r rest : List UInt8} {v : Value}
    (h : value fuel (123 :: r) = some (v, rest)) : ∃ ms, v = .object ms := by
  cases fuel with
  | zero => simp [value] at h
  | succ fuel =>
    obtain ⟨c, r', hs, hp⟩ := value_succ_eq_some.mp h
    have hs' : c = 123 := by
      simp [skipSpace, List.dropWhile_cons_of_neg, show isSpace 123 = false by decide] at hs
      exact hs.1.symm
    subst hs'
    rcases hp with ⟨-, ms, -, rfl⟩ | ⟨hc, -⟩ | ⟨hc, -⟩ | ⟨hc, -⟩ | ⟨hc, -⟩ | ⟨hc, -⟩ | ⟨lit, hn, -⟩
    · exact ⟨ms, rfl⟩
    iterate 5 exact absurd hc (by decide)
    · rcases number_head hn with hc | hc <;> exact absurd hc (by decide)

end Grammar

end TreeCatalog.Json
