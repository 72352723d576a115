import TreeCatalog.Text.Utf8
/-! # Request targets

A target is a path, then optionally `?` and a raw query. The path is percent-decoded. The query is
a list of `&`-separated pairs `key=value` (a pair without `=` has an empty value); keys and values
are decoded with `+` as a space and `%XX` as a byte. Empty pairs are skipped, and so is a pair
holding a `;` or a malformed escape. The value of a key is its first pair's. -/

namespace TreeCatalog.Http

/-- The value of a hexadecimal digit byte. -/
def hexDigit? (b : UInt8) : Option Nat :=
  if 48 ≤ b ∧ b ≤ 57 then some (b.toNat - 48)
  else if 97 ≤ b ∧ b ≤ 102 then some (b.toNat - 87)
  else if 65 ≤ b ∧ b ≤ 70 then some (b.toNat - 55)
  else none

/-- Decodes `%XX` escapes (and `+` as a space when `plusSpace`); none for a malformed escape. -/
def unescapeBytes (plusSpace : Bool) : List UInt8 → Option (List UInt8)
  | [] => some []
  | 37 :: a :: b :: rest =>
    match hexDigit? a, hexDigit? b with
    | some x, some y => (unescapeBytes plusSpace rest).map ((x * 16 + y).toUInt8 :: ·)
    | _, _ => none
  | 37 :: _ => none
  | 43 :: rest => (unescapeBytes plusSpace rest).map ((if plusSpace then 32 else 43) :: ·)
  | b :: rest => (unescapeBytes plusSpace rest).map (b :: ·)

/-- Decodes a path; a malformed one is kept as written. -/
def unescapePath (s : String) : String :=
  match unescapeBytes false s.toUTF8.toList with
  | some bs => Text.Utf8.decode bs
  | none => s

/-- A target split into its decoded path and its raw query, and whether it had a `?` at all
(an empty query after a `?` is still written back). -/
structure Target where
  path : String
  rawQuery : String
  queried : Bool
deriving Repr, DecidableEq

/-- Splits a target at its first `?`. -/
def Target.parse (t : String) : Target :=
  match t.splitOn "?" with
  | [] => ⟨unescapePath t, "", false⟩
  | [p] => ⟨unescapePath p, "", false⟩
  | p :: rest => ⟨unescapePath p, "?".intercalate rest, true⟩

/-- The query part as written back into a location: `?` and the raw query, when there was one. -/
def Target.querySuffix (t : Target) : String := if t.queried then "?" ++ t.rawQuery else ""

/-- The decoded pairs of a raw query, in order: each key as text, each value as its bytes. -/
def queryPairs (raw : String) : List (String × List UInt8) :=
  (raw.splitOn "&").filterMap fun pair =>
    if pair = "" ∨ pair.contains ';' then none else
    let (k, v) := match pair.splitOn "=" with
      | [] => ("", "")
      | k :: rest => (k, "=".intercalate rest)
    match unescapeBytes true k.toUTF8.toList, unescapeBytes true v.toUTF8.toList with
    | some k, some v => some (Text.Utf8.decode k, v)
    | _, _ => none

/-- The bytes of the value of a query key: its first pair's, else none. A value need not be
UTF-8. -/
def Target.queryBytes (t : Target) (key : String) : List UInt8 :=
  ((queryPairs t.rawQuery).lookup key).getD []

/-- The value of a query key as text, each stray byte read as U+FFFD. -/
def Target.query (t : Target) (key : String) : String := Text.Utf8.decode (t.queryBytes key)

theorem unescapeBytes_plain (bs : List UInt8) (h : ∀ b ∈ bs, b ≠ 37 ∧ b ≠ 43) :
    unescapeBytes true bs = some bs := by
  induction bs with
  | nil => rfl
  | cons b rest ih =>
    have hb := h b (by simp)
    have hr := ih (fun x hx => h x (by simp [hx]))
    unfold unescapeBytes
    split
    · simp_all
    · simp_all
    · simp_all
    · simp_all
    · rename_i heq
      simp only [List.cons.injEq] at heq
      obtain ⟨rfl, rfl⟩ := heq
      simp [hr]

end TreeCatalog.Http
