import Mathlib
import TreeCatalog.Json.Read
import TreeCatalog.Proofs.Json.Escapes
import TreeCatalog.Proofs.Json.Numbers

/-! # Compact JSON text, recognised and read back

Catalog documents are made of strings, integers, arrays and objects (`Value.Integral`). Written in
the compact layout, such a value is accepted by the recogniser exactly when its containers nest no
deeper than the limit, and is refused as too deep otherwise (`run_render`); the reader gives the
value back (`readValue_render`). Both are proved for the value, the items of an array and the
members of an object together, following the writer's own mutual recursion; together they give
`parse_render_object`, the round trip of a whole object text. -/

namespace TreeCatalog.Json

open Text.Utf8

mutual
/-- How many containers are open at the deepest point of a value, the value itself included. -/
def Value.nesting : Value → Nat
  | .array vs => nestingItems vs + 1
  | .object ms => nestingMembers ms + 1
  | _ => 0

/-- The deepest nesting among the items of an array. -/
def nestingItems : List Value → Nat
  | [] => 0
  | v :: vs => max v.nesting (nestingItems vs)

/-- The deepest nesting among the values of an object's members. -/
def nestingMembers : List (String × Value) → Nat
  | [] => 0
  | (_, v) :: ms => max v.nesting (nestingMembers ms)
end

mutual
/-- A value made of strings, integer numerals, arrays and objects only. -/
def Value.Integral : Value → Prop
  | .string _ => True
  | .number lit => ∃ n : Int, lit = toString n
  | .array vs => ItemsIntegral vs
  | .object ms => MembersIntegral ms
  | .null => False
  | .bool _ => False

/-- Every item is made of strings, integers, arrays and objects only. -/
def ItemsIntegral : List Value → Prop
  | [] => True
  | v :: vs => v.Integral ∧ ItemsIntegral vs

/-- Every member's value is made of strings, integers, arrays and objects only. -/
def MembersIntegral : List (String × Value) → Prop
  | [] => True
  | (_, v) :: ms => v.Integral ∧ MembersIntegral ms
end

example : (Value.array [.string "a", .object [("b", .array [])]]).nesting = 3 := by decide

section Bytes

/-! The bytes of the compact layout, piece by piece. -/

theorem encode_comma : encode "," = [44] := by simp; rfl
theorem encode_colon : encode ":" = [58] := by simp; rfl
theorem encode_openArray : encode "[" = [91] := by simp; rfl
theorem encode_closeArray : encode "]" = [93] := by simp; rfl
theorem encode_openObject : encode "\x7b" = [123] := by simp; rfl
theorem encode_closeObject : encode "\x7d" = [125] := by simp; rfl

variable (d : Nat)

theorem encode_quote (s : String) : encode (quote false s) = 34 :: stringBytes s ++ [34] := by
  simp only [quote, encode_eq_flatMap, String.toList_ofList, List.cons_append, List.flatMap_cons,
    List.flatMap_append, stringBytes, List.flatMap_assoc]
  rfl

theorem encode_render_string (s : String) :
    encode ((Value.string s).render .plain d) = 34 :: stringBytes s ++ [34] := by
  simp only [Value.render, Style.plain, encode_quote]

theorem encode_render_number (lit : String) :
    encode ((Value.number lit).render .plain d) = encode lit := by
  rw [Value.render]

theorem encode_render_array_nil : encode ((Value.array []).render .plain d) = [91, 93] := by
  simp only [Value.render, encode_eq_flatMap]
  rfl

theorem encode_render_array {vs : List Value} (hvs : vs ≠ []) :
    encode ((Value.array vs).render .plain d) =
      91 :: encode (renderItems .plain (d + 1) vs) ++ [93] := by
  obtain ⟨v, vs, rfl⟩ := List.exists_cons_of_ne_nil hvs
  simp only [Value.render, close, Style.plain, String.append_empty, encode_append, encode_openArray,
    encode_closeArray, List.singleton_append]

theorem encode_render_object_nil : encode ((Value.object []).render .plain d) = [123, 125] := by
  simp only [Value.render, encode_eq_flatMap]
  rfl

theorem encode_render_object {ms : List (String × Value)} (hms : ms ≠ []) :
    encode ((Value.object ms).render .plain d) =
      123 :: encode (renderMembers .plain (d + 1) ms) ++ [125] := by
  obtain ⟨m, ms, rfl⟩ := List.exists_cons_of_ne_nil hms
  simp only [Value.render, close, Style.plain, String.append_empty, encode_append,
    encode_openObject, encode_closeObject, List.singleton_append]

theorem encode_renderItems_single (v : Value) :
    encode (renderItems .plain d [v]) = encode (v.render .plain d) := by
  simp only [renderItems, open_, Style.plain, String.empty_append]

theorem encode_renderItems_cons (v : Value) {vs : List Value} (hvs : vs ≠ []) :
    encode (renderItems .plain d (v :: vs)) =
      encode (v.render .plain d) ++ 44 :: encode (renderItems .plain d vs) := by
  obtain ⟨w, ws, rfl⟩ := List.exists_cons_of_ne_nil hvs
  simp only [renderItems, open_, Style.plain, String.empty_append, encode_append, encode_comma,
    List.append_assoc, List.singleton_append]

theorem encode_member (k : String) (v : Value) :
    encode (member .plain d k v) = 34 :: stringBytes k ++ 34 :: 58 :: encode (v.render .plain d) := by
  simp only [member, Style.plain, Option.isSome_none, Bool.false_eq_true, if_false, encode_append,
    encode_quote, encode_colon, List.append_assoc, List.cons_append, List.nil_append]

theorem encode_renderMembers_single (k : String) (v : Value) :
    encode (renderMembers .plain d [(k, v)]) = encode (member .plain d k v) := by
  simp only [renderMembers, open_, Style.plain, String.empty_append]

theorem encode_renderMembers_cons (k : String) (v : Value) {ms : List (String × Value)}
    (hms : ms ≠ []) :
    encode (renderMembers .plain d ((k, v) :: ms)) =
      encode (member .plain d k v) ++ 44 :: encode (renderMembers .plain d ms) := by
  obtain ⟨m, ms, rfl⟩ := List.exists_cons_of_ne_nil hms
  simp only [renderMembers, open_, Style.plain, String.empty_append, encode_append, encode_comma,
    List.append_assoc, List.singleton_append]

/-- A written value starts with a byte that is neither blank nor a closing bracket. -/
theorem render_head {v : Value} (hv : v.Integral) :
    ∃ b bs, encode (v.render .plain d) = b :: bs ∧ b ≠ 93 ∧ isSpace b = false := by
  cases v with
  | string s => exact ⟨34, _, by rw [encode_render_string]; rfl, by decide, by decide⟩
  | number lit =>
    obtain ⟨n, rfl⟩ := hv
    obtain ⟨b, bs, hbs, hb⟩ := encode_toString_head n
    refine ⟨b, bs, by rw [encode_render_number, hbs], ?_, ?_⟩
    · rintro rfl
      rcases hb with h | h <;> simp_all
    · rcases hb with rfl | ⟨h48, h57⟩
      · decide
      · simp only [isSpace, Bool.or_eq_false_iff, beq_eq_false_iff_ne, ne_eq, ← UInt8.toNat_inj]
        simp only [UInt8.toNat_ofNat]
        omega
  | array vs =>
    cases vs with
    | nil => exact ⟨91, _, encode_render_array_nil d, by decide, by decide⟩
    | cons w ws =>
      exact ⟨91, _, by rw [encode_render_array d (List.cons_ne_nil w ws)]; rfl, by decide,
        by decide⟩
  | object ms =>
    cases ms with
    | nil => exact ⟨123, _, encode_render_object_nil d, by decide, by decide⟩
    | cons m ms =>
      exact ⟨123, _, by rw [encode_render_object d (List.cons_ne_nil m ms)]; rfl, by decide,
        by decide⟩
  | null => exact absurd hv id
  | bool b => exact absurd hv id

/-- The items of a non-empty array start as their first item does. -/
theorem renderItems_head {v : Value} (hv : v.Integral) (vs : List Value) :
    ∃ b bs, encode (renderItems .plain d (v :: vs)) = b :: bs ∧ b ≠ 93 ∧ isSpace b = false := by
  obtain ⟨b, bs, hbs, h93, hsp⟩ := render_head d hv
  cases vs with
  | nil => exact ⟨b, bs, by rw [encode_renderItems_single, hbs], h93, hsp⟩
  | cons w ws =>
    exact ⟨b, _, by rw [encode_renderItems_cons d v (List.cons_ne_nil w ws), hbs]; rfl, h93, hsp⟩

/-- The members of a non-empty object start with the quote of the first key. -/
theorem renderMembers_head (k : String) (v : Value) (ms : List (String × Value)) :
    ∃ bs, encode (renderMembers .plain d ((k, v) :: ms)) = 34 :: bs := by
  cases ms with
  | nil => exact ⟨_, by rw [encode_renderMembers_single, encode_member]; rfl⟩
  | cons m ms =>
    exact ⟨_, by rw [encode_renderMembers_cons d k v (List.cons_ne_nil m ms), encode_member]; rfl⟩

end Bytes

section Scan

/-! The recogniser over compact text: one lemma for each bracket and separator, then the value,
the items of an array and the members of an object together. -/

section Steps

variable (fs : List Frame) (more : List UInt8)

theorem step_comma_item :
    Scanner.step ⟨.next, .arrayValue :: fs⟩ 44 more = .ok ⟨.value, .arrayValue :: fs⟩ := rfl

theorem step_close_items :
    Scanner.step ⟨.next, .arrayValue :: fs⟩ 93 more =
      .ok ⟨if fs.isEmpty then .done else .next, fs⟩ := rfl

theorem step_close_emptyArray :
    Scanner.step ⟨.valueOrClose, .arrayValue :: fs⟩ 93 more =
      .ok ⟨if fs.isEmpty then .done else .next, fs⟩ := rfl

theorem step_comma_member :
    Scanner.step ⟨.next, .objectValue :: fs⟩ 44 more = .ok ⟨.key, .objectKey :: fs⟩ := rfl

theorem step_close_members :
    Scanner.step ⟨.next, .objectValue :: fs⟩ 125 more =
      .ok ⟨if fs.isEmpty then .done else .next, fs⟩ := rfl

theorem step_close_emptyObject :
    Scanner.step ⟨.keyOrClose, .objectKey :: fs⟩ 125 more =
      .ok ⟨if fs.isEmpty then .done else .next, fs⟩ := rfl

end Steps

/-- A container opens unless it would be one too many. -/
theorem run_open {fs : List Frame} {b : UInt8} {rest : List UInt8} {f : Frame} {m : Mode}
    (h : Scanner.step ⟨.value, fs⟩ b rest = openFrame fs f m) :
    Scanner.run ⟨.value, fs⟩ (b :: rest) =
      if fs.length + 1 ≤ maxDepth then Scanner.run ⟨m, f :: fs⟩ rest else .error .tooDeep := by
  rw [run_cons, h, openFrame]
  by_cases hd : fs.length + 1 ≤ maxDepth
  · rw [if_pos hd, if_pos hd]
  · rw [if_neg hd, if_neg hd]

/-- After a closing bracket, the next byte is read as after any other value. -/
theorem run_closed (fs : List Frame) (c : UInt8) (rest : List UInt8) :
    Scanner.run ⟨if fs.isEmpty then .done else .next, fs⟩ (c :: rest) =
      Scanner.run ⟨.next, fs⟩ (c :: rest) := by
  cases fs with
  | nil => rfl
  | cons f fs => rfl

theorem run_valueOrClose {fs : List Frame} {b : UInt8} {rest : List UInt8} (h93 : b ≠ 93)
    (hsp : isSpace b = false) :
    Scanner.run ⟨.valueOrClose, fs⟩ (b :: rest) = Scanner.run ⟨.value, fs⟩ (b :: rest) := by
  have hb : (b == 93) = false := by simpa using h93
  simp only [run_cons, Scanner.step, hsp, hb, Bool.false_eq_true, if_false]

/-- Two depth checks in a row are one check of the larger depth. -/
theorem ite_within {a b : Nat} (x : Except SyntaxError Scanner) :
    (if a ≤ maxDepth then (if b ≤ maxDepth then x else .error .tooDeep) else .error .tooDeep) =
      if max a b ≤ maxDepth then x else .error .tooDeep := by
  simp only [← ite_and, Nat.max_le]

/-- A member is its key and a colon, then its value read in the object's frame. -/
theorem run_member {fs : List Frame} {d : Nat} {k : String} {v : Value} {more : List UInt8} :
    Scanner.run ⟨.key, .objectKey :: fs⟩ (encode (member .plain d k v) ++ more) =
      Scanner.run ⟨.value, .objectValue :: fs⟩ (encode (v.render .plain d) ++ more) := by
  simp only [encode_member, List.cons_append, List.append_assoc]
  rw [run_cons_of_step rfl, run_string, run_cons_of_step rfl]

theorem run_valueOrClose_renderItems {fs : List Frame} {d : Nat} {v : Value} (hv : v.Integral)
    (vs : List Value) (more : List UInt8) :
    Scanner.run ⟨.valueOrClose, fs⟩ (encode (renderItems .plain d (v :: vs)) ++ more) =
      Scanner.run ⟨.value, fs⟩ (encode (renderItems .plain d (v :: vs)) ++ more) := by
  obtain ⟨b, bs, hbs, h93, hsp⟩ := renderItems_head d hv vs
  rw [hbs, List.cons_append, run_valueOrClose h93 hsp]

theorem run_keyOrClose_renderMembers {fs : List Frame} (d : Nat) (k : String) (v : Value)
    (ms : List (String × Value)) (more : List UInt8) :
    Scanner.run ⟨.keyOrClose, fs⟩ (encode (renderMembers .plain d ((k, v) :: ms)) ++ more) =
      Scanner.run ⟨.key, fs⟩ (encode (renderMembers .plain d ((k, v) :: ms)) ++ more) := by
  obtain ⟨bs, hbs⟩ := renderMembers_head d k v ms
  rw [hbs]
  rfl

section Containers

/-! Over a container the recogniser opens a frame, passes over the contents and closes the frame;
each lemma takes what it does over the contents as given. The state after the closing bracket is
`.done` at the top and `.next` inside another container. -/

variable {fs : List Frame} {d : Nat} {rest : List UInt8}

theorem run_render_array_nil :
    Scanner.run ⟨.value, fs⟩ (encode ((Value.array []).render .plain d) ++ rest) =
      if fs.length + (Value.array []).nesting ≤ maxDepth then
        Scanner.run ⟨if fs.isEmpty then .done else .next, fs⟩ rest
      else .error .tooDeep := by
  simp only [encode_render_array_nil, List.cons_append, List.nil_append]
  rw [run_open rfl, run_cons_of_step (step_close_emptyArray _ _)]
  rfl

theorem run_render_object_nil :
    Scanner.run ⟨.value, fs⟩ (encode ((Value.object []).render .plain d) ++ rest) =
      if fs.length + (Value.object []).nesting ≤ maxDepth then
        Scanner.run ⟨if fs.isEmpty then .done else .next, fs⟩ rest
      else .error .tooDeep := by
  simp only [encode_render_object_nil, List.cons_append, List.nil_append]
  rw [run_open rfl, run_cons_of_step (step_close_emptyObject _ _)]
  rfl

/-- Opening the container is one more level than its contents: the check made on opening and the
checks made inside are one check of the whole depth. The contents are only read once the container
has opened, so what they do is needed only below the limit. -/
theorem ite_open {n : Nat} {x y : Except SyntaxError Scanner}
    (hin : fs.length < maxDepth → x = if fs.length + 1 + n ≤ maxDepth then y else .error .tooDeep) :
    (if fs.length + 1 ≤ maxDepth then x else .error .tooDeep) =
      if fs.length + (n + 1) ≤ maxDepth then y else .error .tooDeep := by
  by_cases hopen : fs.length < maxDepth
  · rw [hin hopen, ite_within,
      show max (fs.length + 1) (fs.length + 1 + n) = fs.length + (n + 1) by omega]
  · rw [if_neg (by omega), if_neg (by omega)]

theorem run_render_array {v : Value} (hv : v.Integral) {vs : List Value}
    (hitems : fs.length < maxDepth → Scanner.run ⟨.value, .arrayValue :: fs⟩
        (encode (renderItems .plain (d + 1) (v :: vs)) ++ 93 :: rest) =
      if fs.length + 1 + nestingItems (v :: vs) ≤ maxDepth then
        Scanner.run ⟨if fs.isEmpty then .done else .next, fs⟩ rest
      else .error .tooDeep) :
    Scanner.run ⟨.value, fs⟩ (encode ((Value.array (v :: vs)).render .plain d) ++ rest) =
      if fs.length + (Value.array (v :: vs)).nesting ≤ maxDepth then
        Scanner.run ⟨if fs.isEmpty then .done else .next, fs⟩ rest
      else .error .tooDeep := by
  simp only [encode_render_array d (List.cons_ne_nil v vs), List.cons_append, List.append_assoc,
    List.nil_append]
  rw [run_open rfl, run_valueOrClose_renderItems hv, ite_open hitems]
  rfl

theorem run_render_object {k : String} {v : Value} {ms : List (String × Value)}
    (hmembers : fs.length < maxDepth → Scanner.run ⟨.key, .objectKey :: fs⟩
        (encode (renderMembers .plain (d + 1) ((k, v) :: ms)) ++ 125 :: rest) =
      if fs.length + 1 + nestingMembers ((k, v) :: ms) ≤ maxDepth then
        Scanner.run ⟨if fs.isEmpty then .done else .next, fs⟩ rest
      else .error .tooDeep) :
    Scanner.run ⟨.value, fs⟩ (encode ((Value.object ((k, v) :: ms)).render .plain d) ++ rest) =
      if fs.length + (Value.object ((k, v) :: ms)).nesting ≤ maxDepth then
        Scanner.run ⟨if fs.isEmpty then .done else .next, fs⟩ rest
      else .error .tooDeep := by
  simp only [encode_render_object d (List.cons_ne_nil _ ms), List.cons_append, List.append_assoc,
    List.nil_append]
  rw [run_open rfl, run_keyOrClose_renderMembers, ite_open hmembers]
  rfl

end Containers

mutual

/-- From where a value may begin, the recogniser passes over a written value to the byte after
it, unless a container inside opens past the nesting limit. -/
theorem run_render : ∀ v : Value, v.Integral → ∀ (d : Nat) (fs : List Frame) (c : UInt8)
    (rest : List UInt8), fs.length ≤ maxDepth → isNumberByte c = false →
    Scanner.run ⟨.value, fs⟩ (encode (v.render .plain d) ++ c :: rest) =
      if fs.length + v.nesting ≤ maxDepth then Scanner.run ⟨.next, fs⟩ (c :: rest)
      else .error .tooDeep
  | .string s, _ => by
    intro d fs c rest hfs _
    simp only [encode_render_string, List.cons_append, List.append_assoc]
    rw [run_cons_of_step rfl, run_string]
    simp [Value.nesting, hfs]
  | .number lit, ⟨n, hn⟩ => by
    intro d fs c rest hfs hc
    subst hn
    rw [encode_render_number, run_numeral n hc]
    simp [Value.nesting, hfs]
  | .array [], _ => by
    intro d fs c rest _ _
    rw [run_render_array_nil, run_closed]
  | .array (v :: vs), hvs => by
    intro d fs c rest _ _
    rw [run_render_array hvs.1 (run_renderItems (v :: vs) hvs (List.cons_ne_nil v vs) (d + 1) fs
      _), run_closed]
  | .object [], _ => by
    intro d fs c rest _ _
    rw [run_render_object_nil, run_closed]
  | .object ((k, v) :: ms), hms => by
    intro d fs c rest _ _
    rw [run_render_object (run_renderMembers ((k, v) :: ms) hms (List.cons_ne_nil _ ms) (d + 1) fs
      _), run_closed]
  | .null, h => h.elim
  | .bool _, h => h.elim

/-- The items of an array, up to its closing bracket. -/
theorem run_renderItems : ∀ vs : List Value, ItemsIntegral vs → vs ≠ [] → ∀ (d : Nat)
    (fs : List Frame) (rest : List UInt8), fs.length < maxDepth →
    Scanner.run ⟨.value, .arrayValue :: fs⟩ (encode (renderItems .plain d vs) ++ 93 :: rest) =
      if fs.length + 1 + nestingItems vs ≤ maxDepth then
        Scanner.run ⟨if fs.isEmpty then .done else .next, fs⟩ rest
      else .error .tooDeep
  | [], _, hne => absurd rfl hne
  | [v], hvs, _ => by
    intro d fs rest hfs
    rw [encode_renderItems_single, run_render v hvs.1 d (.arrayValue :: fs) 93 rest
      (by rw [List.length_cons]; omega) (by decide), run_cons_of_step (step_close_items _ _)]
    simp only [List.length_cons, nestingItems, Nat.max_zero]
  | v :: w :: ws, hvs, _ => by
    intro d fs rest hfs
    rw [encode_renderItems_cons d v (List.cons_ne_nil w ws), List.append_assoc, List.cons_append,
      run_render v hvs.1 d (.arrayValue :: fs) 44 _ (by rw [List.length_cons]; omega) (by decide),
      run_cons_of_step (step_comma_item _ _), run_renderItems (w :: ws) hvs.2 (List.cons_ne_nil w ws) d fs rest hfs,
      List.length_cons, ite_within]
    simp only [nestingItems, Nat.add_max_add_left]
    rfl

/-- The members of an object, up to its closing brace. -/
theorem run_renderMembers : ∀ ms : List (String × Value), MembersIntegral ms → ms ≠ [] →
    ∀ (d : Nat) (fs : List Frame) (rest : List UInt8), fs.length < maxDepth →
    Scanner.run ⟨.key, .objectKey :: fs⟩ (encode (renderMembers .plain d ms) ++ 125 :: rest) =
      if fs.length + 1 + nestingMembers ms ≤ maxDepth then
        Scanner.run ⟨if fs.isEmpty then .done else .next, fs⟩ rest
      else .error .tooDeep
  | [], _, hne => absurd rfl hne
  | [(k, v)], hms, _ => by
    intro d fs rest hfs
    rw [encode_renderMembers_single, run_member, run_render v hms.1 d (.objectValue :: fs) 125 rest
      (by rw [List.length_cons]; omega) (by decide), run_cons_of_step (step_close_members _ _)]
    simp only [List.length_cons, nestingMembers, Nat.max_zero]
  | (k, v) :: m :: ms, hms, _ => by
    intro d fs rest hfs
    rw [encode_renderMembers_cons d k v (List.cons_ne_nil m ms), List.append_assoc, List.cons_append,
      run_member, run_render v hms.1 d (.objectValue :: fs) 44 _ (by rw [List.length_cons]; omega)
      (by decide), run_cons_of_step (step_comma_member _ _),
      run_renderMembers (m :: ms) hms.2 (List.cons_ne_nil m ms) d fs rest hfs, List.length_cons,
      ite_within]
    simp only [nestingMembers, Nat.add_max_add_left]
    rfl

end

end Scan

section Read

/-! The reader over compact text: what it does at each bracket and separator, given the value
read before it, then the value, the items of an array and the members of an object together. -/

theorem skipSpace_cons {b : UInt8} (h : isSpace b = false) (bs : List UInt8) :
    skipSpace (b :: bs) = b :: bs :=
  List.dropWhile_cons_of_neg (by simp [h])

theorem skipSpace_renderItems {d : Nat} {w : Value} (hw : w.Integral) (ws : List Value)
    (more : List UInt8) :
    skipSpace (encode (renderItems .plain d (w :: ws)) ++ more) =
      encode (renderItems .plain d (w :: ws)) ++ more := by
  obtain ⟨b, bs, hbs, -, hsp⟩ := renderItems_head d hw ws
  rw [hbs, List.cons_append, skipSpace_cons hsp]

theorem skipSpace_renderMembers (d : Nat) (k : String) (v : Value) (ms : List (String × Value))
    (more : List UInt8) :
    skipSpace (encode (renderMembers .plain d ((k, v) :: ms)) ++ more) =
      encode (renderMembers .plain d ((k, v) :: ms)) ++ more := by
  obtain ⟨bs, hbs⟩ := renderMembers_head d k v ms
  rw [hbs, List.cons_append, skipSpace_cons (by decide)]

theorem render_ne_close {d : Nat} {v : Value} (hv : v.Integral) (more r : List UInt8) :
    encode (v.render .plain d) ++ more ≠ 93 :: r := by
  obtain ⟨b, bs, hbs, h93, -⟩ := render_head d hv
  rw [hbs, List.cons_append]
  exact fun h => h93 (List.cons.inj h).1

section Steps

variable (fuel : Nat) (bs : List UInt8)

theorem readValue_quote :
    readValue (fuel + 1) (34 :: bs) =
      (let (body, after) := stringBody bs; some (.string (String.ofList (unescape body)), after)) :=
  rfl

theorem readValue_openArray : readValue (fuel + 1) (91 :: bs) = readItems fuel [] (skipSpace bs) :=
  rfl

theorem readValue_openObject :
    readValue (fuel + 1) (123 :: bs) = readMembers fuel [] (skipSpace bs) :=
  rfl

end Steps

section Continue

/-! What follows a value inside a container. Each lemma ends on a step that unfolds
`skipSpace`, which no rewrite does on its own. -/

variable {fuel : Nat} {bs rest : List UInt8} {v : Value}

/-- After an item, a comma leads on to the next item. -/
theorem readItems_comma {acc : List Value} (hb : ∀ r, bs ≠ 93 :: r)
    (hv : readValue fuel bs = some (v, 44 :: rest)) :
    readItems (fuel + 1) acc bs = readItems fuel (v :: acc) (skipSpace rest) := by
  rw [readItems.eq_def]
  dsimp only
  split
  · exact absurd rfl (hb _)
  · rw [hv]
    rfl

/-- After an item, a bracket closes the array. -/
theorem readItems_close {acc : List Value} (hb : ∀ r, bs ≠ 93 :: r)
    (hv : readValue fuel bs = some (v, 93 :: rest)) :
    readItems (fuel + 1) acc bs = some (.array (v :: acc).reverse, rest) := by
  rw [readItems.eq_def]
  dsimp only
  split
  · exact absurd rfl (hb _)
  · rw [hv]
    rfl

/-- After a member, a comma leads on to the next member. -/
theorem readMembers_comma {acc : List (String × Value)} {k : String}
    (hv : readValue fuel bs = some (v, 44 :: rest)) :
    readMembers (fuel + 1) acc (34 :: (stringBytes k ++ 34 :: 58 :: bs)) =
      readMembers fuel ((k, v) :: acc) (skipSpace rest) := by
  rw [readMembers]
  simp only [stringBody_string, unescape_string, String.ofList_toList,
    skipSpace_cons (by decide : isSpace 58 = false), hv]
  rfl

/-- After a member, a brace closes the object. -/
theorem readMembers_close {acc : List (String × Value)} {k : String}
    (hv : readValue fuel bs = some (v, 125 :: rest)) :
    readMembers (fuel + 1) acc (34 :: (stringBytes k ++ 34 :: 58 :: bs)) =
      some (.object ((k, v) :: acc).reverse, rest) := by
  rw [readMembers]
  simp only [stringBody_string, unescape_string, String.ofList_toList,
    skipSpace_cons (by decide : isSpace 58 = false), hv]
  rfl

end Continue

mutual

/-- The reader takes a written value back, leaving the byte after it, at any fuel of at least
the value's length. -/
theorem readValue_render : ∀ v : Value, v.Integral → ∀ (d : Nat) (c : UInt8) (rest : List UInt8)
    (fuel : Nat), isNumberByte c = false → (encode (v.render .plain d)).length ≤ fuel →
    readValue fuel (encode (v.render .plain d) ++ c :: rest) = some (v, c :: rest)
  | .string s, _ => by
    intro d c rest fuel _ hfuel
    rw [encode_render_string] at hfuel ⊢
    obtain ⟨f, rfl⟩ : ∃ f, fuel = f + 1 := Nat.exists_eq_add_one.mpr (by simp at hfuel; omega)
    simp only [List.cons_append, List.append_assoc, List.nil_append]
    rw [readValue_quote, stringBody_string]
    simp only [unescape_string, String.ofList_toList]
  | .number lit, ⟨n, hn⟩ => by
    intro d c rest fuel hc hfuel
    subst hn
    rw [encode_render_number] at hfuel ⊢
    obtain ⟨f, rfl⟩ : ∃ f, fuel = f + 1 := Nat.exists_eq_add_one.mpr (by
      obtain ⟨b, bs, hbs, -⟩ := encode_toString_head n
      rw [hbs] at hfuel
      simp at hfuel
      omega)
    exact readValue_numeral n hc rest f
  | .array [], _ => by
    intro d c rest fuel _ hfuel
    rw [encode_render_array_nil] at hfuel ⊢
    obtain ⟨f, rfl⟩ : ∃ f, fuel = f + 2 := ⟨fuel - 2, by simp at hfuel; omega⟩
    rfl
  | .array (v :: vs), hvs => by
    intro d c rest fuel _ hfuel
    rw [encode_render_array d (List.cons_ne_nil v vs)] at hfuel ⊢
    simp only [List.length_cons, List.length_append] at hfuel
    obtain ⟨f, rfl⟩ : ∃ f, fuel = f + 1 := Nat.exists_eq_add_one.mpr (by omega)
    simp only [List.cons_append, List.append_assoc, List.nil_append]
    rw [readValue_openArray, skipSpace_renderItems hvs.1,
      readItems_render (v :: vs) hvs (List.cons_ne_nil v vs) (d + 1) [] (c :: rest) f (by omega)]
    rfl
  | .object [], _ => by
    intro d c rest fuel _ hfuel
    rw [encode_render_object_nil] at hfuel ⊢
    obtain ⟨f, rfl⟩ : ∃ f, fuel = f + 2 := ⟨fuel - 2, by simp at hfuel; omega⟩
    rfl
  | .object ((k, v) :: ms), hms => by
    intro d c rest fuel _ hfuel
    rw [encode_render_object d (List.cons_ne_nil _ ms)] at hfuel ⊢
    simp only [List.length_cons, List.length_append] at hfuel
    obtain ⟨f, rfl⟩ : ∃ f, fuel = f + 1 := Nat.exists_eq_add_one.mpr (by omega)
    simp only [List.cons_append, List.append_assoc, List.nil_append]
    rw [readValue_openObject, skipSpace_renderMembers,
      readMembers_render ((k, v) :: ms) hms (List.cons_ne_nil _ ms) (d + 1) [] (c :: rest) f
        (by omega)]
    rfl
  | .null, h => h.elim
  | .bool _, h => h.elim

/-- The reader takes the written items of an array back, up to its closing bracket. -/
theorem readItems_render : ∀ vs : List Value, ItemsIntegral vs → vs ≠ [] → ∀ (d : Nat)
    (acc : List Value) (rest : List UInt8) (fuel : Nat),
    (encode (renderItems .plain d vs)).length < fuel →
    readItems fuel acc (encode (renderItems .plain d vs) ++ 93 :: rest) =
      some (.array (acc.reverse ++ vs), rest)
  | [], _, hne => absurd rfl hne
  | [v], hvs, _ => by
    intro d acc rest fuel hfuel
    rw [encode_renderItems_single] at hfuel ⊢
    obtain ⟨f, rfl⟩ : ∃ f, fuel = f + 1 := Nat.exists_eq_add_one.mpr (by omega)
    rw [readItems_close (render_ne_close hvs.1 _)
      (readValue_render v hvs.1 d 93 rest f (by decide) (by omega)), List.reverse_cons]
  | v :: w :: ws, hvs, _ => by
    intro d acc rest fuel hfuel
    rw [encode_renderItems_cons d v (List.cons_ne_nil w ws)] at hfuel ⊢
    simp only [List.length_cons, List.length_append] at hfuel
    obtain ⟨f, rfl⟩ : ∃ f, fuel = f + 1 := Nat.exists_eq_add_one.mpr (by omega)
    rw [List.append_assoc, List.cons_append, readItems_comma (render_ne_close hvs.1 _)
      (readValue_render v hvs.1 d 44 _ f (by decide) (by omega))]
    simp only [skipSpace_renderItems hvs.2.1,
      readItems_render (w :: ws) hvs.2 (List.cons_ne_nil w ws) d (v :: acc) rest f (by omega),
      List.reverse_cons, List.append_assoc, List.singleton_append]

/-- The reader takes the written members of an object back, up to its closing brace. -/
theorem readMembers_render : ∀ ms : List (String × Value), MembersIntegral ms → ms ≠ [] →
    ∀ (d : Nat) (acc : List (String × Value)) (rest : List UInt8) (fuel : Nat),
    (encode (renderMembers .plain d ms)).length < fuel →
    readMembers fuel acc (encode (renderMembers .plain d ms) ++ 125 :: rest) =
      some (.object (acc.reverse ++ ms), rest)
  | [], _, hne => absurd rfl hne
  | [(k, v)], hms, _ => by
    intro d acc rest fuel hfuel
    rw [encode_renderMembers_single, encode_member] at hfuel ⊢
    simp only [List.length_cons, List.length_append] at hfuel
    obtain ⟨f, rfl⟩ : ∃ f, fuel = f + 1 := Nat.exists_eq_add_one.mpr (by omega)
    simp only [List.cons_append, List.append_assoc]
    rw [readMembers_close (readValue_render v hms.1 d 125 rest f (by decide) (by omega)),
      List.reverse_cons]
  | (k, v) :: m :: ms, hms, _ => by
    intro d acc rest fuel hfuel
    obtain ⟨k', v'⟩ := m
    rw [encode_renderMembers_cons d k v (List.cons_ne_nil _ ms), encode_member] at hfuel ⊢
    simp only [List.length_cons, List.length_append] at hfuel
    obtain ⟨f, rfl⟩ : ∃ f, fuel = f + 1 := Nat.exists_eq_add_one.mpr (by omega)
    simp only [List.cons_append, List.append_assoc]
    rw [readMembers_comma (readValue_render v hms.1 d 44 _ f (by decide) (by omega))]
    simp only [skipSpace_renderMembers,
      readMembers_render ((k', v') :: ms) hms.2 (List.cons_ne_nil _ ms) d ((k, v) :: acc) rest f
        (by omega), List.reverse_cons, List.append_assoc, List.singleton_append]

end

end Read

section Text

/-! A written object as a whole text. -/

variable {ms : List (String × Value)} (hms : MembersIntegral ms) (d : Nat)
include hms

/-- The recogniser accepts a written object exactly when its containers nest within the limit. -/
theorem check_render_object :
    check (encode ((Value.object ms).render .plain d)) =
      if (Value.object ms).nesting ≤ maxDepth then .ok () else .error .tooDeep := by
  have hrun : Scanner.start.run (encode ((Value.object ms).render .plain d) ++ []) =
      if ([] : List Frame).length + (Value.object ms).nesting ≤ maxDepth then
        Scanner.run ⟨if ([] : List Frame).isEmpty then .done else .next, []⟩ []
      else .error .tooDeep := by
    cases ms with
    | nil => exact run_render_object_nil
    | cons m ms =>
      obtain ⟨k, v⟩ := m
      exact run_render_object
        (fun hlt => run_renderMembers _ hms (List.cons_ne_nil _ ms) (d + 1) [] [] hlt)
  simp only [List.append_nil, List.length_nil, Nat.zero_add, List.isEmpty_nil, if_true,
    run_nil] at hrun
  rw [check, hrun]
  by_cases hdeep : (Value.object ms).nesting ≤ maxDepth
  · rw [if_pos hdeep, if_pos hdeep]
    rfl
  · rw [if_neg hdeep, if_neg hdeep]

theorem readValue_render_object {fuel : Nat}
    (hfuel : (encode ((Value.object ms).render .plain d)).length ≤ fuel) :
    readValue fuel (encode ((Value.object ms).render .plain d)) = some (.object ms, []) := by
  cases ms with
  | nil =>
    rw [encode_render_object_nil] at hfuel ⊢
    obtain ⟨f, rfl⟩ : ∃ f, fuel = f + 2 := ⟨fuel - 2, by simp at hfuel; omega⟩
    rfl
  | cons m ms =>
    obtain ⟨k, v⟩ := m
    rw [encode_render_object d (List.cons_ne_nil _ ms)] at hfuel ⊢
    simp only [List.length_cons, List.length_append, List.length_nil] at hfuel
    obtain ⟨f, rfl⟩ : ∃ f, fuel = f + 1 := Nat.exists_eq_add_one.mpr (by omega)
    rw [List.cons_append, readValue_openObject, skipSpace_renderMembers,
      readMembers_render _ hms (List.cons_ne_nil _ ms) (d + 1) [] [] f (by omega)]
    rfl

/-- A written object, as a whole text, parses back to itself exactly when its containers nest
within the limit, and is refused as too deep otherwise. -/
theorem parse_render_object :
    parse (encode ((Value.object ms).render .plain d)) =
      if (Value.object ms).nesting ≤ maxDepth then .ok (.object ms) else .error .tooDeep := by
  rw [parse, check_render_object hms d]
  by_cases hdeep : (Value.object ms).nesting ≤ maxDepth
  · simp only [if_pos hdeep]
    rw [readValue_render_object hms d (by omega)]
  · simp only [if_neg hdeep]

end Text

end TreeCatalog.Json
