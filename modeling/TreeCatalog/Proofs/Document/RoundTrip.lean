import Mathlib
import TreeCatalog.Document.Decode
import TreeCatalog.Document.Encode
import TreeCatalog.Proofs.Entry.Tree
import TreeCatalog.Proofs.Json.Compact
import TreeCatalog.Proofs.Text.Trim

/-! # Documents read back

A tree is written as one object per entry, and the reader takes each object back member by member
into a draft whose entry is the tree again (`entryOf_entryValue`). The document is compact JSON
text, so it parses back to its value exactly when it nests within the recogniser's limit
(`Json.parse_render_object`). Writing a tree and reading the text back therefore gives the tree
in the object layout when its document nests at most 10000 containers deep, and is refused as too
deep otherwise: the writer has no such limit (`decode_encode_of_fit`). Sizes are taken within
64 bits, as the catalog's files hold them. -/

namespace TreeCatalog

namespace Entry

mutual
/-- How deep the document of a tree nests: one object for each entry and one array for each
child list, along the deepest path. -/
def nesting : Entry → Nat
  | ⟨_, _, _, none⟩ => 1
  | ⟨_, _, _, some cs⟩ => nestingList cs + 2

/-- The deepest nesting among a list of trees. -/
def nestingList : List Entry → Nat
  | [] => 0
  | e :: es => max e.nesting (nestingList es)
end

/-- Every size in the tree lies within 64 bits. -/
def SizesFit (e : Entry) : Prop :=
  ∀ x ∈ e.preorder, -9223372036854775808 ≤ x.size ∧ x.size < 9223372036854775808

theorem SizesFit.size {e : Entry} (h : e.SizesFit) :
    -9223372036854775808 ≤ e.size ∧ e.size < 9223372036854775808 :=
  h e (mem_preorder_self e)

theorem SizesFit.child {e c : Entry} (h : e.SizesFit) (hc : c ∈ e.kids) : c.SizesFit :=
  fun x hx => h x (preorder_subset_of_mem_kids hc x hx)

end Entry

namespace Document

open Json

section Values

/-! The value of an entry: its members, and what the JSON layer needs of them. -/

theorem entryValue_none (k n : String) (s : Int) :
    entryValue ⟨k, n, s, none⟩ =
      .object [("type", .string k), ("name", .string n), ("size", Value.int s)] := rfl

theorem entryValue_some (k n : String) (s : Int) (cs : List Entry) :
    entryValue ⟨k, n, s, some cs⟩ =
      .object [("type", .string k), ("name", .string n), ("size", Value.int s),
        ("contents", .array (entryValues cs))] := rfl

mutual
theorem integral_entryValue : ∀ e : Entry, (entryValue e).Integral
  | ⟨_, _, s, none⟩ => ⟨trivial, trivial, ⟨s, rfl⟩, trivial⟩
  | ⟨_, _, s, some cs⟩ => ⟨trivial, trivial, ⟨s, rfl⟩, integral_entryValues cs, trivial⟩

theorem integral_entryValues : ∀ es : List Entry, ItemsIntegral (entryValues es)
  | [] => trivial
  | e :: es => ⟨integral_entryValue e, integral_entryValues es⟩
end

mutual
/-- A tree's document nests as deep as the tree says. -/
theorem nesting_entryValue : ∀ e : Entry, (entryValue e).nesting = e.nesting
  | ⟨_, _, _, none⟩ => rfl
  | ⟨_, _, _, some cs⟩ => by
    rw [entryValue_some]
    simp only [Value.nesting, Value.int, nestingMembers, nesting_entryValues cs, Entry.nesting]
    omega

theorem nesting_entryValues : ∀ es : List Entry, nestingItems (entryValues es) = Entry.nestingList es
  | [] => rfl
  | e :: es => by
    simp only [entryValues, nestingItems, nesting_entryValue e, nesting_entryValues es,
      Entry.nestingList]
end

end Values

section Read

/-! The reader on the members an entry is written with, one field at a time. -/

theorem fieldOf?_key : ∀ f : Field, fieldOf? f.key = some f := by
  intro f
  cases f <;> decide

variable (path : List Step) (d : Draft) (ms : List (String × Value))

theorem readMembers_kind (k : String) :
    readMembers path d (("type", .string k) :: ms) = readMembers path { d with kind := k } ms := by
  simp only [readMembers, show fieldOf? "type" = some .kind from fieldOf?_key .kind]
  rfl

theorem readMembers_name (n : String) :
    readMembers path d (("name", .string n) :: ms) = readMembers path { d with name := n } ms := by
  simp only [readMembers, show fieldOf? "name" = some .name from fieldOf?_key .name]
  rfl

theorem readMembers_size {s : Int} (h : -9223372036854775808 ≤ s ∧ s < 9223372036854775808) :
    readMembers path d (("size", Value.int s) :: ms) = readMembers path { d with size := s } ms := by
  simp only [readMembers, show fieldOf? "size" = some .size from fieldOf?_key .size]
  simp only [readSize, Value.int, int64?_toString h.1 h.2]

theorem readMembers_contents_nil :
    readMembers path d (("contents", .array []) :: ms) =
      readMembers path { d with slots := some [], used := 0 } ms := by
  simp only [readMembers, show fieldOf? "contents" = some .contents from fieldOf?_key .contents]

theorem readMembers_contents {vs : List Value} (hvs : vs ≠ []) {store : List Draft}
    (h : readSlots (path ++ [.member "contents"]) 0 (d.slots.getD []) vs = .ok store) :
    readMembers path d (("contents", .array vs) :: ms) =
      readMembers path { d with slots := some store, used := vs.length } ms := by
  obtain ⟨v, vs, rfl⟩ := List.exists_cons_of_ne_nil hvs
  simp only [readMembers, show fieldOf? "contents" = some .contents from fieldOf?_key .contents]
  simp only [h]

/-- The three members every entry is written with come first and fill a fresh draft. -/
theorem readEntry_header {s : Int} (h : -9223372036854775808 ≤ s ∧ s < 9223372036854775808)
    (k n : String) :
    readEntry path {} (.object (("type", .string k) :: ("name", .string n) ::
        ("size", Value.int s) :: ms)) =
      readMembers path { kind := k, name := n, size := s } ms := by
  rw [readEntry, readMembers_kind, readMembers_name, readMembers_size _ _ _ h]

mutual
/-- Reading an entry's value into a fresh draft gives a draft of that entry. -/
theorem readEntry_entryValue : ∀ e : Entry, e.SizesFit → ∀ path : List Step,
    ∃ d, readEntry path {} (entryValue e) = .ok d ∧ d.toEntry = e
  | ⟨k, n, s, none⟩, hfit => by
    intro path
    refine ⟨{ kind := k, name := n, size := s }, ?_, rfl⟩
    rw [entryValue_none, readEntry_header _ [] hfit.size, readMembers]
  | ⟨k, n, s, some []⟩, hfit => by
    intro path
    refine ⟨{ kind := k, name := n, size := s, slots := some [], used := 0 }, ?_, rfl⟩
    rw [entryValue_some, readEntry_header _ _ hfit.size, entryValues, readMembers_contents_nil,
      readMembers]
  | ⟨k, n, s, some (c :: cs)⟩, hfit => by
    intro path
    -- the children are read into a store that starts empty, each into a fresh draft
    obtain ⟨ds, hds, hto⟩ := readSlots_entryValues (c :: cs) (fun x hx => hfit.child hx)
      (path ++ [.member "contents"]) 0
    refine ⟨{ kind := k, name := n, size := s, slots := some ds, used := (c :: cs).length },
      ?_, ?_⟩
    · have hne : entryValues (c :: cs) ≠ [] := by simp [entryValues]
      have hlen : (entryValues (c :: cs)).length = (c :: cs).length := by
        rw [entryValues_eq_map, List.length_map]
      rw [entryValue_some, readEntry_header _ _ hfit.size, readMembers_contents _ _ _ hne hds,
        hlen, readMembers]
    · rw [Draft.toEntry, hto, List.take_length]

/-- Reading a list of entries' values into an empty store gives drafts of those entries. -/
theorem readSlots_entryValues : ∀ es : List Entry, (∀ e ∈ es, e.SizesFit) →
    ∀ (path : List Step) (i : Nat),
    ∃ ds, readSlots path i [] (entryValues es) = .ok ds ∧ Draft.toEntries ds = es
  | [], _ => fun _ _ => ⟨[], rfl, rfl⟩
  | e :: es, hfit => by
    intro path i
    obtain ⟨d, hd, hde⟩ := readEntry_entryValue e (hfit e List.mem_cons_self) (path ++ [.place i])
    obtain ⟨ds, hds, hdse⟩ := readSlots_entryValues es (fun x hx => hfit x (List.mem_cons_of_mem _ hx))
      path (i + 1)
    refine ⟨d :: ds, ?_, ?_⟩
    · rw [entryValues, readSlots]
      simp only [nextSlot, hd, hds]
      rfl
    · rw [Draft.toEntries, hde, hdse]
end

theorem entryOf_entryValue {e : Entry} (h : e.SizesFit) : entryOf (entryValue e) = .ok e := by
  obtain ⟨d, hd, hde⟩ := readEntry_entryValue e h []
  rw [entryOf, hd]
  exact congrArg Except.ok hde

end Read

section Decode

/-! The whole text: no blank to trim, one object to parse, one entry to read. -/

/-- A text that starts with a brace and has nothing to trim is read as one entry object. -/
theorem decode_brace {bytes rest : List UInt8} (htrim : Text.trimBytes bytes = bytes)
    (hhead : bytes = 123 :: rest) :
    decode bytes = match parse bytes with
      | .error e => .error (.malformed e)
      | .ok v => (entryOf v).map fun root => ⟨root, .object⟩ := by
  unfold decode
  simp only [htrim]
  subst hhead
  rfl

theorem entryValue_object (e : Entry) : ∃ ms, entryValue e = .object ms ∧ ms ≠ [] := by
  obtain ⟨k, n, s, cs⟩ := e
  cases cs with
  | none => exact ⟨_, entryValue_none k n s, List.cons_ne_nil _ _⟩
  | some cs => exact ⟨_, entryValue_some k n s cs, List.cons_ne_nil _ _⟩

/-- A document is an object: its text is a brace, the members, and a closing brace. -/
theorem encode_braces (e : Entry) : ∃ xs, Text.Utf8.encode (encode e) = 123 :: (xs ++ [125]) := by
  obtain ⟨ms, hms, hne⟩ := entryValue_object e
  exact ⟨Text.Utf8.encode (renderMembers .plain 1 ms),
    by rw [encode, Value.text, hms, encode_render_object 0 hne, List.cons_append]⟩

/-- A document parses back to its tree's value exactly when the tree nests within the limit. -/
theorem parse_encode (e : Entry) :
    parse (Text.Utf8.encode (encode e)) =
      if e.nesting ≤ maxDepth then .ok (entryValue e) else .error .tooDeep := by
  obtain ⟨ms, hms, -⟩ := entryValue_object e
  have hint : MembersIntegral ms := by
    have := integral_entryValue e
    rwa [hms] at this
  rw [← nesting_entryValue, encode, Value.text, hms]
  exact parse_render_object hint 0

/-- Writing a tree and reading the text back gives the tree, in the object layout, when its
document nests at most `maxDepth` containers deep; a deeper tree is refused as too deep. -/
theorem decode_encode_of_fit {T : Entry} (hT : T.SizesFit) :
    decode (Text.Utf8.encode (encode T)) =
      if T.nesting ≤ maxDepth then .ok ⟨T, .object⟩ else .error (.malformed .tooDeep) := by
  obtain ⟨xs, hxs⟩ := encode_braces T
  rw [decode_brace (by rw [hxs, Text.trimBytes_braces]) hxs, parse_encode]
  by_cases hdeep : T.nesting ≤ maxDepth
  · rw [if_pos hdeep, if_pos hdeep]
    simp only [entryOf_entryValue hT]
    rfl
  · rw [if_neg hdeep, if_neg hdeep]

/-- A directory holding a file whose name needs escapes and an empty directory. -/
def sampleTree : Entry :=
  ⟨"directory", "./photos", 3,
    some [⟨"file", "./photos/\"a\" <b>\n\u2028.jpg", 3, none⟩,
      ⟨"directory", "./photos/empty", 0, some []⟩]⟩

/-- A file under `n` unnamed wrappers, each holding only the next. -/
def wrapped : Nat → Entry
  | 0 => ⟨"file", "x", 0, none⟩
  | n + 1 => ⟨"", "", 0, some [wrapped n]⟩

theorem nesting_wrapped (n : Nat) : (wrapped n).nesting = 2 * n + 1 := by
  induction n with
  | zero => rfl
  | succ n ih =>
    simp only [wrapped, Entry.nesting, Entry.nestingList, ih]
    omega

theorem sizesFit_wrapped (n : Nat) : (wrapped n).SizesFit := by
  induction n with
  | zero => simp [Entry.SizesFit, wrapped, Entry.preorder]
  | succ n ih =>
    intro x hx
    rw [Entry.preorder_eq] at hx
    simp only [wrapped, Entry.kids, Option.getD_some, List.map_cons, List.map_nil,
      List.flatten_cons, List.flatten_nil, List.append_nil, List.mem_cons] at hx
    rcases hx with rfl | hx
    · simp
    · exact ih x hx

end Decode

end Document

end TreeCatalog
