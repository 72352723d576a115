import Mathlib
import TreeCatalog.Proofs.Document.Shapes

/-! # Which texts are documents

A text is a document when its trimmed text is one JSON text, within the nesting limit, whose root
fits an entry: the whole value after a brace, the first element of a non-empty array after a
bracket, where null also fits. A value fits an entry when it is an entry object (`isEntry`): each
member that names a field, up to case, holds a value that field takes, a string or null for the
type and the name, null or an integer literal within 64 bits for the size, null or an array of
entry objects and nulls for the contents.

Reading an entry object goes member by member (`readMember`, `readMembers_cons`), so it succeeds
exactly when every member fits (`readMembers_ok_iff`), whatever draft it starts from. A repeated
key is read again into what the earlier one left: a field takes the value of the last member that
names it with a value of its type, so a later null keeps the earlier value, and a later contents
array is read into the children already there (`readMembers_fields`, `decode_contents_merge`).
The reading of the whole document, its failures and their causes are in `decode_outcomes`. -/

namespace TreeCatalog.Document

open Json Json.Grammar Text

section Entries

mutual
/-- An entry object: an object each of whose members that names a field holds a value the field
takes. -/
def isEntry : Value → Bool
  | .object ms => membersFit ms
  | _ => false

/-- Each member that names a field holds a value the field takes. -/
def membersFit : List (String × Value) → Bool
  | [] => true
  | (k, v) :: ms => fieldTakes (fieldOf? k) v && membersFit ms

/-- The values a field takes: null for every field, a string for the type and the name, an
integer literal within 64 bits for the size, an array of entry objects and nulls for the contents;
a key that names no field takes anything. -/
def fieldTakes : Option Field → Value → Bool
  | none, _ => true
  | some _, .null => true
  | some .kind, .string _ => true
  | some .name, .string _ => true
  | some .size, .number lit => (Text.int64? lit).isSome
  | some .contents, .array vs => elementsFit vs
  | some _, _ => false

/-- Each element is an entry object or null. -/
def elementsFit : List Value → Bool
  | [] => true
  | .null :: vs => elementsFit vs
  | v :: vs => isEntry v && elementsFit vs
end

/-- A value that can stand for an entry: an entry object, or null for an empty entry. -/
def isElement : Value → Bool
  | .null => true
  | v => isEntry v

theorem elementsFit_cons (v : Value) (vs : List Value) :
    elementsFit (v :: vs) = (isElement v && elementsFit vs) := by
  cases v <;> simp [elementsFit, isElement]

end Entries

section Members

/-- What reading one member does to a draft: the field the key names, if any, is read from the
value, and a contents array is read into the children already there. -/
def readMember (path : List Step) (d : Draft) (k : String) (v : Value) : Except TypeError Draft :=
  match fieldOf? k, v with
  | none, _ => .ok d
  | some .kind, v => (readText (path ++ [.member k]) d.kind v).map ({ d with kind := · })
  | some .name, v => (readText (path ++ [.member k]) d.name v).map ({ d with name := · })
  | some .size, v => (readSize (path ++ [.member k]) d.size v).map ({ d with size := · })
  | some .contents, .null => .ok { d with slots := none, used := 0 }
  | some .contents, .array [] => .ok { d with slots := some [], used := 0 }
  | some .contents, .array items =>
    (readSlots (path ++ [.member k]) 0 (d.slots.getD []) items).map
      fun store => { d with slots := some store, used := items.length }
  | some .contents, other => .error ⟨other.kindName, .entries, path ++ [.member k]⟩

theorem readMembers_cons (path : List Step) (d : Draft) (k : String) (v : Value)
    (ms : List (String × Value)) :
    readMembers path d ((k, v) :: ms) = (readMember path d k v).bind (readMembers path · ms) := by
  rw [readMembers.eq_def]
  dsimp only
  unfold readMember
  cases fieldOf? k with
  | none => rfl
  | some f =>
    cases f with
    | kind => dsimp only; cases readText (path ++ [.member k]) d.kind v <;> rfl
    | name => dsimp only; cases readText (path ++ [.member k]) d.name v <;> rfl
    | size => dsimp only; cases readSize (path ++ [.member k]) d.size v <;> rfl
    | contents =>
      dsimp only
      cases v with
      | array items =>
        cases items with
        | nil => rfl
        | cons x xs =>
          dsimp only
          cases readSlots (path ++ [.member k]) 0 (d.slots.getD []) (x :: xs) <;> rfl
      | _ => rfl

/-! Reading succeeds exactly on values that fit, from any draft: the drafts decide what is read,
never whether. The four statements are proved together, by recursion on the value. -/

mutual
theorem readEntry_ok_iff (path : List Step) :
    ∀ (v : Value) (d : Draft), (∃ d', readEntry path d v = .ok d') ↔ isElement v = true
  | .null, d => by simp [readEntry, isElement]
  | .object ms, d => by
    rw [readEntry, readMembers_ok_iff path ms d]
    simp [isElement, isEntry]
  | .bool _, d | .number _, d | .string _, d | .array _, d => by
    simp [readEntry, isElement, isEntry]

theorem readMember_ok_iff (path : List Step) (k : String) :
    ∀ (v : Value) (d : Draft), (∃ d', readMember path d k v = .ok d') ↔ fieldTakes (fieldOf? k) v = true
  | .array (x :: xs), d => by
    -- only the contents field reads into the children, element by element
    unfold readMember
    cases hf : fieldOf? k with
    | none => simp [fieldTakes]
    | some f =>
      cases f with
      | contents =>
        have hslots := readSlots_ok_iff (path ++ [.member k]) (x :: xs) 0 (d.slots.getD [])
        cases hs : readSlots (path ++ [.member k]) 0 (d.slots.getD []) (x :: xs) with
        | error e => simpa [fieldTakes, hs, Except.map] using hslots
        | ok store => simpa [fieldTakes, hs, Except.map] using hslots
      | _ => simp [fieldTakes, readText, readSize, Except.map]
  | .number lit, d => by
    unfold readMember
    cases hf : fieldOf? k with
    | none => simp [fieldTakes]
    | some f =>
      cases f <;> cases hl : Text.int64? lit <;>
        simp [fieldTakes, readText, readSize, hl, Except.map]
  | .null, d | .bool _, d | .string _, d | .object _, d | .array [], d => by
    unfold readMember
    cases hf : fieldOf? k with
    | none => simp [fieldTakes]
    | some f => cases f <;> simp [fieldTakes, readText, readSize, Except.map, elementsFit]

theorem readMembers_ok_iff (path : List Step) :
    ∀ (ms : List (String × Value)) (d : Draft),
      (∃ d', readMembers path d ms = .ok d') ↔ membersFit ms = true
  | [], d => by simp [readMembers, membersFit]
  | (k, v) :: ms, d => by
    rw [readMembers_cons, membersFit]
    have hv := readMember_ok_iff path k v d
    cases hm : readMember path d k v with
    | error e =>
      have hfit : fieldTakes (fieldOf? k) v = false := by simpa [hm] using hv
      simp [hfit, Except.bind]
    | ok d₁ =>
      have hfit : fieldTakes (fieldOf? k) v = true := hv.mp ⟨d₁, hm⟩
      simpa [hfit, Except.bind] using readMembers_ok_iff path ms d₁

theorem readSlots_ok_iff (path : List Step) :
    ∀ (vs : List Value) (i : Nat) (store : List Draft),
      (∃ store', readSlots path i store vs = .ok store') ↔ elementsFit vs = true
  | [], i, store => by simp [readSlots, elementsFit]
  | v :: vs, i, store => by
    rw [readSlots, elementsFit_cons]
    have hv := readEntry_ok_iff (path ++ [.place i]) v (nextSlot store).1
    cases he : readEntry (path ++ [.place i]) (nextSlot store).1 v with
    | error e =>
      have hfit : isElement v = false := by simpa [he] using hv
      simp [he, hfit]
    | ok d =>
      have hfit : isElement v = true := hv.mp ⟨d, he⟩
      have hvs := readSlots_ok_iff path vs (i + 1) (nextSlot store).2
      cases hs : readSlots path (i + 1) (nextSlot store).2 vs with
      | error e => simpa [he, hs, hfit, Except.map] using hvs
      | ok ds => simpa [he, hs, hfit, Except.map] using hvs
end

end Members

section Fields

/-- The text of a string value. -/
def stringOf? : Value → Option String
  | .string s => some s
  | _ => none

/-- The integer of a number whose literal is an integer within 64 bits. -/
def int64Of? : Value → Option Int
  | .number lit => Text.int64? lit
  | _ => none

/-- How many children a contents value gives: none for null, one per element for an array. -/
def childCountOf? : Value → Option (Option Nat)
  | .null => some none
  | .array items => some (some items.length)
  | _ => none

/-- The last value that `g` reads among the members naming field `f`, or `x` when there is none. -/
def lastField {α : Type} (f : Field) (g : Value → Option α) (x : α) (ms : List (String × Value)) : α :=
  (ms.filterMap fun m => if fieldOf? m.1 = some f then g m.2 else none).getLast?.getD x

theorem lastField_cons {α : Type} (f : Field) (g : Value → Option α) (x : α) (k : String) (v : Value)
    (ms : List (String × Value)) :
    lastField f g x ((k, v) :: ms) =
      lastField f g (if fieldOf? k = some f then (g v).getD x else x) ms := by
  unfold lastField
  rw [List.filterMap_cons]
  by_cases hf : fieldOf? k = some f
  · cases g v <;> simp [hf, List.getLast?_cons]
  · simp [hf]

/-- The number of children of the entry a draft stands for, if it has a child list. -/
def Draft.count (d : Draft) : Option Nat := d.toEntry.children.map List.length

theorem toEntries_length (ds : List Draft) : (Draft.toEntries ds).length = ds.length := by
  induction ds with
  | nil => rfl
  | cons d ds ih => simp [Draft.toEntries, ih]

theorem Draft.count_eq (d : Draft) :
    d.count = d.slots.map fun store => min d.used store.length := by
  obtain ⟨k, n, s, slots, u⟩ := d
  cases slots <;> simp [Draft.count, Draft.toEntry, toEntries_length]

theorem readSlots_length {path : List Step} :
    ∀ {vs : List Value} {i : Nat} {store store' : List Draft},
      readSlots path i store vs = .ok store' → vs.length ≤ store'.length
  | [], _, _, _, _ => by simp
  | v :: vs, i, store, store', h => by
    rw [readSlots] at h
    cases he : readEntry (path ++ [.place i]) (nextSlot store).1 v with
    | error e => simp [he] at h
    | ok d =>
      cases hs : readSlots path (i + 1) (nextSlot store).2 vs with
      | error e => simp [he, hs, Except.map] at h
      | ok rest =>
        simp only [he, hs, Except.map, Except.ok.injEq] at h
        subst h
        simpa using readSlots_length hs

/-- One member sets the field it names, as that field reads its value, and leaves the others. -/
theorem readMember_fields {path : List Step} {d d₁ : Draft} {k : String} {v : Value}
    (h : readMember path d k v = .ok d₁) :
    d₁.kind = (if fieldOf? k = some .kind then (stringOf? v).getD d.kind else d.kind) ∧
    d₁.name = (if fieldOf? k = some .name then (stringOf? v).getD d.name else d.name) ∧
    d₁.size = (if fieldOf? k = some .size then (int64Of? v).getD d.size else d.size) ∧
    d₁.count = (if fieldOf? k = some .contents then (childCountOf? v).getD d.count
      else d.count) := by
  unfold readMember at h
  cases hf : fieldOf? k with
  | none =>
    simp only [hf, Except.ok.injEq] at h
    simp [h]
  | some f =>
    cases f with
    | kind =>
      cases v <;> simp [hf, readText, Except.map] at h <;> subst h <;>
        simp [stringOf?, Draft.count_eq]
    | name =>
      cases v <;> simp [hf, readText, Except.map] at h <;> subst h <;>
        simp [stringOf?, Draft.count_eq]
    | size =>
      cases v with
      | number lit =>
        cases hl : Text.int64? lit <;> simp [hf, readSize, hl, Except.map] at h
        subst h
        simp [int64Of?, hl, Draft.count_eq]
      | _ => simp [hf, readSize, Except.map] at h <;> subst h <;> simp [int64Of?, Draft.count_eq]
    | contents =>
      cases v with
      | null =>
        simp only [hf, Except.ok.injEq] at h
        subst h
        simp [childCountOf?, Draft.count_eq]
      | array items =>
        cases items with
        | nil =>
          simp only [hf, Except.ok.injEq] at h
          subst h
          simp [childCountOf?, Draft.count_eq]
        | cons x xs =>
          cases hs : readSlots (path ++ [.member k]) 0 (d.slots.getD []) (x :: xs) with
          | error e => simp [hf, hs, Except.map] at h
          | ok store =>
            simp only [hf, hs, Except.map, Except.ok.injEq] at h
            subst h
            have hlen := readSlots_length hs
            simp only [List.length_cons] at hlen
            simp [childCountOf?, Draft.count_eq]
            omega
      | _ => simp [hf] at h

/-- Reading members sets each field from the last member that names it with a value of its type,
and the child count from the last contents member, leaving what no member sets. -/
theorem readMembers_fields {path : List Step} :
    ∀ {ms : List (String × Value)} {d d' : Draft}, readMembers path d ms = .ok d' →
      d'.kind = lastField .kind stringOf? d.kind ms ∧
      d'.name = lastField .name stringOf? d.name ms ∧
      d'.size = lastField .size int64Of? d.size ms ∧
      d'.count = lastField .contents childCountOf? d.count ms
  | [], d, d', h => by
    simp only [readMembers, Except.ok.injEq] at h
    subst h
    simp [lastField]
  | (k, v) :: ms, d, d', h => by
    rw [readMembers_cons] at h
    cases hm : readMember path d k v with
    | error e => simp [hm, Except.bind] at h
    | ok d₁ =>
      simp only [hm, Except.bind] at h
      obtain ⟨hk, hn, hs, hc⟩ := readMember_fields hm
      obtain ⟨hk', hn', hs', hc'⟩ := readMembers_fields h
      simp only [lastField_cons]
      rw [hk', hn', hs', hc', hk, hn, hs, hc]

      exact ⟨rfl, rfl, rfl, rfl⟩

theorem Draft.toEntry_fields (d : Draft) :
    d.toEntry.kind = d.kind ∧ d.toEntry.name = d.name ∧ d.toEntry.size = d.size := by
  obtain ⟨k, n, s, slots, u⟩ := d
  cases slots <;> exact ⟨rfl, rfl, rfl⟩

/-- The fields of an entry read from members: the type, name and size of the last member naming
each with a value of its type, empty or zero when none does, and as many children as the last
contents member lists, none when that member is null or there is none. -/
structure ReadFrom (ms : List (String × Value)) (e : Entry) : Prop where
  kind : e.kind = lastField .kind stringOf? "" ms
  name : e.name = lastField .name stringOf? "" ms
  size : e.size = lastField .size int64Of? 0 ms
  count : e.children.map List.length = lastField .contents childCountOf? none ms

/-- An entry read from an object has the fields its members give. -/
theorem entryOf_object {ms : List (String × Value)} {root : Entry}
    (h : entryOf (.object ms) = .ok root) : ReadFrom ms root := by
  unfold entryOf at h
  rw [readEntry] at h
  cases hr : readMembers [] {} ms with
  | error e => simp [hr] at h
  | ok d =>
    simp only [hr, Except.ok.injEq] at h
    subst h
    obtain ⟨hk, hn, hs, hc⟩ := readMembers_fields hr
    obtain ⟨hk', hn', hs'⟩ := d.toEntry_fields
    exact ⟨hk'.trans hk, hn'.trans hn, hs'.trans hs, hc⟩

/-- A null read as an entry is the empty entry, the one no members give. -/
theorem entryOf_null : entryOf .null = .ok ⟨"", "", 0, none⟩ := rfl

end Fields

section Outcomes

@[simp]
theorem entryOf_map_ok_iff {v : Value} {f : Entry → Document} :
    (∃ d, (entryOf v).map f = .ok d) ↔ isElement v = true := by
  rw [← readEntry_ok_iff [] v {}]
  unfold entryOf
  cases readEntry [] {} v <;> simp [Except.map]

@[simp]
theorem entryOf_map_ne_malformed {v : Value} {f : Entry → Document} {e : SyntaxError} :
    (entryOf v).map f ≠ .error (.malformed e) := by
  unfold entryOf
  cases readEntry [] {} v <;> simp [Except.map]

@[simp]
theorem entryOf_map_type_iff {v : Value} {f : Entry → Document} :
    (∃ e, (entryOf v).map f = .error (.type e)) ↔ isElement v = false := by
  have hok := readEntry_ok_iff [] v {}
  unfold entryOf
  cases hr : readEntry [] {} v with
  | error e => simpa [hr, Except.map] using hok
  | ok d => simpa [hr, Except.map] using hok

/-- `t` is one JSON text with value `v`, nesting at most `maxDepth` containers deep. -/
def JsonText (t : List UInt8) (v : Value) : Prop := text t = some v ∧ v.nesting ≤ maxDepth

theorem jsonText_iff {t : List UInt8} {v : Value} : JsonText t v ↔ parse t = .ok v :=
  parse_eq_ok_iff.symm

/-- A trimmed text that reads as a document: one JSON text that is an entry object after a brace,
or after a bracket a non-empty array whose first element is an entry object or null. -/
def Readable (t : List UInt8) : Prop :=
  ∃ v, JsonText t v ∧
    (t.head? = some 123 ∧ isEntry v = true ∨
      t.head? = some 91 ∧ ∃ w ws, v = .array (w :: ws) ∧ isElement w = true)

/-- The members the root is read from in a trimmed text: those of the whole value in the object
layout, those of the first element in the array layout, and none for a null first element. -/
def RootMembers (t : List UInt8) : Shape → List (String × Value) → Prop
  | .object, ms => JsonText t (.object ms)
  | .array, ms => ∃ ws, JsonText t (.array (.object ms :: ws)) ∨
      ms = [] ∧ JsonText t (.array (.null :: ws))

/-- A text that starts with a brace parses to an object. -/
theorem parse_brace {r : List UInt8} {v : Value} (h : parse (123 :: r) = .ok v) :
    ∃ ms, v = .object ms := by
  obtain ⟨rest, hv, -⟩ := text_eq_some.mp (parse_eq_ok_iff.mp h).1
  exact value_brace hv

/-- A document is read exactly from a readable trimmed text. -/
theorem decode_ok_iff {s : List UInt8} : (∃ d, decode s = .ok d) ↔ Readable (trimBytes s) := by
  simp only [Readable, jsonText_iff]
  cases ht : trimBytes s with
  | nil => simp [decode_of_empty ht]
  | cons b r =>
    by_cases h123 : b = 123
    · subst h123
      rw [decode_of_brace ht]
      cases hp : parse (123 :: r) with
      | error e => simp
      | ok v =>
        -- after a brace the value is an object, so null does not stand for an entry there
        obtain ⟨ms, rfl⟩ := parse_brace hp
        simp [isElement]
    · by_cases h91 : b = 91
      · subst h91
        rw [decode_of_bracket ht]
        cases hp : parse (91 :: r) with
        | error e => simp
        | ok v =>
          cases v with
          | array items => cases items <;> simp
          | _ => simp
      · simp [decode_of_leading ht h123 h91, h123, h91]

/-- A text that is not one JSON text after a brace or a bracket is refused as malformed, before
anything else is looked at. -/
theorem decode_malformed_iff {s : List UInt8} :
    (∃ e, decode s = .error (.malformed e)) ↔
      ((trimBytes s).head? = some 123 ∨ (trimBytes s).head? = some 91) ∧
        ¬ ∃ v, JsonText (trimBytes s) v := by
  simp only [jsonText_iff]
  cases ht : trimBytes s with
  | nil => simp [decode_of_empty ht]
  | cons b r =>
    by_cases h123 : b = 123
    · subst h123
      rw [decode_of_brace ht]
      cases parse (123 :: r) <;> simp
    · by_cases h91 : b = 91
      · subst h91
        rw [decode_of_bracket ht]
        cases hp : parse (91 :: r) with
        | error e => simp
        | ok v =>
          cases v with
          | array items => cases items <;> simp
          | _ => simp
      · simp [decode_of_leading ht h123 h91, h123, h91]

/-- A JSON text of the right layout is refused for its type exactly when its root does not fit
an entry. -/
theorem decode_type_iff {s : List UInt8} :
    (∃ e, decode s = .error (.type e)) ↔
      ∃ v, JsonText (trimBytes s) v ∧
        ((trimBytes s).head? = some 123 ∧ isEntry v = false ∨
          (trimBytes s).head? = some 91 ∧ ∃ w ws, v = .array (w :: ws) ∧ isElement w = false) := by
  simp only [jsonText_iff]
  cases ht : trimBytes s with
  | nil => simp [decode_of_empty ht]
  | cons b r =>
    by_cases h123 : b = 123
    · subst h123
      rw [decode_of_brace ht]
      cases hp : parse (123 :: r) with
      | error e => simp
      | ok v =>
        obtain ⟨ms, rfl⟩ := parse_brace hp
        simp [isElement]
    · by_cases h91 : b = 91
      · subst h91
        rw [decode_of_bracket ht]
        cases hp : parse (91 :: r) with
        | error e => simp
        | ok v =>
          cases v with
          | array items => cases items <;> simp
          | _ => simp
      · simp [decode_of_leading ht h123 h91, h123, h91]

/-- A read document's root has the fields that the members of its root value give. -/
theorem decode_fields {s : List UInt8} {d : Document} (h : decode s = .ok d) :
    ∃ ms, RootMembers (trimBytes s) d.shape ms ∧ ReadFrom ms d.root := by
  simp only [RootMembers.eq_def, jsonText_iff]
  cases ht : trimBytes s with
  | nil => simp [decode_of_empty ht] at h
  | cons b r =>
    by_cases h123 : b = 123
    · subst h123
      rw [decode_of_brace ht] at h
      cases hp : parse (123 :: r) with
      | error e => simp [hp] at h
      | ok v =>
        obtain ⟨ms, rfl⟩ := parse_brace hp
        simp only [hp] at h
        cases he : entryOf (.object ms) with
        | error e => simp [he, Except.map] at h
        | ok root =>
          simp only [he, Except.map, Except.ok.injEq] at h
          subst h
          exact ⟨ms, rfl, entryOf_object he⟩
    · by_cases h91 : b = 91
      · subst h91
        rw [decode_of_bracket ht] at h
        cases hp : parse (91 :: r) with
        | error e => simp [hp] at h
        | ok v =>
          rw [hp] at h
          -- the root is the first element: an entry object, or null for the empty entry
          cases v with
          | array items =>
            cases items with
            | nil => simp at h
            | cons w ws =>
              cases he : entryOf w with
              | error e => simp [he, Except.map] at h
              | ok root =>
                simp only [he, Except.map, Except.ok.injEq] at h
                subst h
                cases w with
                | object ms => exact ⟨ms, ⟨ws, .inl rfl⟩, entryOf_object he⟩
                | null =>
                  rw [entryOf_null, Except.ok.injEq] at he
                  subst he
                  exact ⟨[], ⟨ws, .inr ⟨rfl, rfl⟩⟩, ⟨rfl, rfl, rfl, rfl⟩⟩
                | _ => simp [entryOf, readEntry] at he
          | _ => simp at h
      · simp [decode_of_leading ht h123 h91] at h

/-- Reading a document accepts exactly the texts whose trimmed text is one JSON text, within the
nesting limit, that is an entry object after a brace, or after a bracket a non-empty array whose
first element is an entry object or null. The root takes the type, name and size of the last
member naming each with a value of its type, and as many children as the last contents member
lists. A text that is not one JSON text after a brace or a bracket is refused as malformed, and a
JSON text whose root does not fit an entry is refused for its type. -/
theorem decode_outcomes (s : List UInt8) :
    ((∃ d, decode s = .ok d) ↔ Readable (trimBytes s)) ∧
    (∀ d, decode s = .ok d → ∃ ms, RootMembers (trimBytes s) d.shape ms ∧ ReadFrom ms d.root) ∧
    ((∃ e, decode s = .error (.malformed e)) ↔
      ((trimBytes s).head? = some 123 ∨ (trimBytes s).head? = some 91) ∧
        ¬ ∃ v, JsonText (trimBytes s) v) ∧
    ((∃ e, decode s = .error (.type e)) ↔
      ∃ v, JsonText (trimBytes s) v ∧
        ((trimBytes s).head? = some 123 ∧ isEntry v = false ∨
          (trimBytes s).head? = some 91 ∧ ∃ w ws, v = .array (w :: ws) ∧ isElement w = false)) :=
  ⟨decode_ok_iff, fun _ h => decode_fields h, decode_malformed_iff, decode_type_iff⟩

/-- An array whose first element is null is read as the empty entry, from no members. -/
theorem decode_outcomes_null :
    decode [91, 110, 117, 108, 108, 93] = .ok ⟨⟨"", "", 0, none⟩, .array⟩ ∧
      ∃ ms, RootMembers (trimBytes [91, 110, 117, 108, 108, 93]) .array ms ∧
        ReadFrom ms ⟨"", "", 0, none⟩ := by
  have h : decode [91, 110, 117, 108, 108, 93] = .ok ⟨⟨"", "", 0, none⟩, .array⟩ := by cbv
  exact ⟨h, (decode_outcomes _).2.1 _ h⟩

/-- A repeated contents array is read into the children the earlier one left, so the child
keeps the size the first array gave it, where the last member alone would give none. -/
theorem decode_contents_merge :
    decode [123, 34, 99, 111, 110, 116, 101, 110, 116, 115, 34, 58, 91, 123, 34, 115, 105, 122,
        101, 34, 58, 49, 125, 93, 44, 34, 99, 111, 110, 116, 101, 110, 116, 115, 34, 58, 91, 123,
        125, 93, 125] =
      .ok ⟨⟨"", "", 0, some [⟨"", "", 1, none⟩]⟩, .object⟩ := by
  cbv

end Outcomes

end TreeCatalog.Document
