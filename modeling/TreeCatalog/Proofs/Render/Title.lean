import Mathlib
import TreeCatalog.Store.Documents
import TreeCatalog.Render.Page
import TreeCatalog.Proofs.Text.Utf8
import TreeCatalog.Proofs.Disk.Writes

/-! # The title of a rendered page

A page holds its title escaped in its title element, and reading the title of a page gives the
title back, trimmed (`pageTitle_page`). Three facts carry it. Escaping writes each of the four
markup characters as a named reference with its `;`, which reading resolves back
(`unescape_escape`). The fixed head of the page ends in the only opening tag of the title before
it, so a search for that tag stops there (`findCaseless_append`). And an escaped title holds no
`<`, so the search for the closing tag runs over it to the text that follows the title
(`findCaseless_skip`). A file that holds a page ends in `>`, so reading it with the zeros past its
stored bytes cut reads the whole page, and the title read from the file is the trimmed title
(`readTitle_page`). -/

namespace TreeCatalog

namespace Markup

section References

/-- A run of letters and digits stops at the `;` after it. -/
theorem nameRun_named {name : List Char} (halnum : name.all Char.isAlphanum = true)
    (rest : List Char) : nameRun (name ++ ';' :: rest) = (name, ';' :: rest) := by
  induction name with
  | nil => simp [nameRun]
  | cons c name ih =>
    rw [List.all_cons, Bool.and_eq_true] at halnum
    have hc := halnum.1
    have ih' := ih halnum.2
    simp only [nameRun, Prod.mk.injEq] at ih'
    simp [nameRun, hc, ih'.1, ih'.2]

/-- A run of letters and digits with its `;` names the reference it spells, when it names one. -/
theorem reference_named {name cs : List Char} (rest : List Char) (hname : name ≠ [])
    (hhash : name.head? ≠ some '#') (halnum : name.all Char.isAlphanum = true)
    (hl : lookupName (String.ofList (name ++ [';'])) = some cs) :
    reference (name ++ ';' :: rest) = some (cs, rest) := by
  have hrun := nameRun_named halnum rest
  obtain ⟨c, name', rfl⟩ := List.exists_cons_of_ne_nil hname
  have hc : c ≠ '#' := fun h => hhash (by simp [h])
  simp only [List.cons_append] at hrun hl ⊢
  rw [reference]
  · simp only [hrun, List.cons_append, List.isEmpty_cons, Bool.false_eq_true, if_false, hl]
  · exact fun r h => hc (List.cons.inj h).1

/-- The four names that escaping writes stand in the table for the markup characters. The
table is long, so the kernel looks all four up in one check. -/
theorem lookupName_markup :
    lookupName (String.ofList (['q', 'u', 'o', 't'] ++ [';'])) = some ['"'] ∧
      lookupName (String.ofList (['a', 'm', 'p'] ++ [';'])) = some ['&'] ∧
      lookupName (String.ofList (['l', 't'] ++ [';'])) = some ['<'] ∧
      lookupName (String.ofList (['g', 't'] ++ [';'])) = some ['>'] := by
  decide +kernel

theorem reference_quot (rest : List Char) :
    reference (['q', 'u', 'o', 't'] ++ ';' :: rest) = some (['"'], rest) :=
  @reference_named ['q', 'u', 'o', 't'] ['"'] rest (by decide) (by decide) (by decide)
    lookupName_markup.1

theorem reference_amp (rest : List Char) :
    reference (['a', 'm', 'p'] ++ ';' :: rest) = some (['&'], rest) :=
  @reference_named ['a', 'm', 'p'] ['&'] rest (by decide) (by decide) (by decide)
    lookupName_markup.2.1

theorem reference_lt (rest : List Char) :
    reference (['l', 't'] ++ ';' :: rest) = some (['<'], rest) :=
  @reference_named ['l', 't'] ['<'] rest (by decide) (by decide) (by decide)
    lookupName_markup.2.2.1

theorem reference_gt (rest : List Char) :
    reference (['g', 't'] ++ ';' :: rest) = some (['>'], rest) :=
  @reference_named ['g', 't'] ['>'] rest (by decide) (by decide) (by decide)
    lookupName_markup.2.2.2

end References

section RoundTrip

theorem unescapeChars_plain {c : Char} (hc : c ≠ '&') (fuel : Nat) (rest : List Char) :
    unescapeChars (fuel + 1) (c :: rest) = c :: unescapeChars fuel rest := by
  rw [unescapeChars]
  exact hc

theorem unescapeChars_reference {rest out tail : List Char} (fuel : Nat)
    (h : reference rest = some (out, tail)) :
    unescapeChars (fuel + 1) ('&' :: rest) = out ++ unescapeChars fuel tail := by
  simp [unescapeChars, h]

/-- Reading escaped characters gives the characters, one step each. -/
theorem unescapeChars_escape (cs : List Char) :
    ∀ fuel, cs.length < fuel → unescapeChars fuel (cs.flatMap escapeChar) = cs := by
  induction cs with
  | nil =>
    intro fuel h
    obtain ⟨k, rfl⟩ : ∃ k, fuel = k + 1 := ⟨fuel - 1, by simp at h; omega⟩
    rfl
  | cons c cs ih =>
    intro fuel h
    obtain ⟨k, rfl⟩ : ∃ k, fuel = k + 1 := ⟨fuel - 1, by simp at h; omega⟩
    have ih' := ih k (by simp at h; omega)
    rw [List.flatMap_cons]
    -- each markup character is a reference that reads back; any other character is itself
    by_cases h1 : c = '"'
    · subst h1
      rw [show escapeChar '"' ++ cs.flatMap escapeChar =
          '&' :: (['q', 'u', 'o', 't'] ++ ';' :: cs.flatMap escapeChar) from rfl,
        unescapeChars_reference k (reference_quot _), ih']
      rfl
    by_cases h2 : c = '&'
    · subst h2
      rw [show escapeChar '&' ++ cs.flatMap escapeChar =
          '&' :: (['a', 'm', 'p'] ++ ';' :: cs.flatMap escapeChar) from rfl,
        unescapeChars_reference k (reference_amp _), ih']
      rfl
    by_cases h3 : c = '<'
    · subst h3
      rw [show escapeChar '<' ++ cs.flatMap escapeChar =
          '&' :: (['l', 't'] ++ ';' :: cs.flatMap escapeChar) from rfl,
        unescapeChars_reference k (reference_lt _), ih']
      rfl
    by_cases h4 : c = '>'
    · subst h4
      rw [show escapeChar '>' ++ cs.flatMap escapeChar =
          '&' :: (['g', 't'] ++ ';' :: cs.flatMap escapeChar) from rfl,
        unescapeChars_reference k (reference_gt _), ih']
      rfl
    rw [escapeChar_of_plain h1 h2 h3 h4, List.singleton_append, unescapeChars_plain h2, ih']

theorem length_le_flatMap_escapeChar (cs : List Char) :
    cs.length ≤ (cs.flatMap escapeChar).length := by
  induction cs with
  | nil => simp
  | cons c cs ih =>
    have hc : 1 ≤ (escapeChar c).length := by
      unfold escapeChar
      split <;> simp
    simp only [List.flatMap_cons, List.length_append, List.length_cons]
    omega

/-- Reading an escaped text gives the text. -/
theorem unescape_escape (s : String) : unescape (escape s) = s := by
  have hlen : s.toList.length < (escape s).length + 1 := by
    have := length_le_flatMap_escapeChar s.toList
    simp only [escape, String.length_ofList]
    omega
  rw [unescape, escape, String.toList_ofList, ← escape, unescapeChars_escape _ _ hlen,
    String.ofList_toList]

/-- An escaped text holds no `<`. -/
theorem lt_not_mem_escape (s : String) : '<' ∉ (escape s).toList := by
  rw [escape, String.toList_ofList, List.mem_flatMap]
  rintro ⟨c, -, hc⟩
  unfold escapeChar at hc
  split at hc
  all_goals first
    | exact absurd hc (by decide)
    | next h1 h2 h3 h4 =>
      rw [List.mem_singleton] at hc
      exact h3 hc.symm

end RoundTrip

end Markup

namespace Store

section Search

variable {p : List UInt8}

theorem lowerByte_eq_lt {b : UInt8} (h : lowerByte b = 60) : b = 60 := by
  unfold lowerByte at h
  split at h <;> grind

/-- A pattern found takes its length in bytes. -/
theorem length_le_of_findCaseless :
    ∀ {xs : List UInt8} {r : List UInt8 × List UInt8}, findCaseless p xs = some r →
      p.length ≤ xs.length
  | [], r, h => by
    simp only [findCaseless] at h
    split at h
    · next hp => simp [List.isEmpty_iff.mp hp]
    · cases h
  | x :: xs, r, h => by
    simp only [findCaseless] at h
    split at h
    · next hpre =>
      have := (List.isPrefixOf_iff_prefix.mp hpre).length_le
      simp only [List.length_map, List.length_take] at this
      omega
    · obtain ⟨r', hr', -⟩ := Option.map_eq_some_iff.mp h
      have := length_le_of_findCaseless hr'
      simp only [List.length_cons]
      omega

/-- A match found in a text is found there in every continuation of it. -/
theorem findCaseless_append :
    ∀ {xs a b : List UInt8}, findCaseless p xs = some (a, b) → ∀ ys,
      findCaseless p (xs ++ ys) = some (a, b ++ ys)
  | [], a, b, h, ys => by
    simp only [findCaseless] at h
    split at h
    · next hp =>
      cases h
      rw [List.isEmpty_iff.mp hp]
      cases ys with
      | nil => rfl
      | cons y ys => simp [findCaseless]
    · cases h
  | x :: xs, a, b, h, ys => by
    have hlen := length_le_of_findCaseless h
    simp only [findCaseless] at h
    -- the window at the front reads the same bytes in the longer text
    have hwin : ((x :: xs) ++ ys).take p.length = (x :: xs).take p.length :=
      List.take_append_of_le_length hlen
    rw [List.cons_append, findCaseless, ← List.cons_append, hwin]
    split at h
    · next hpre =>
      cases h
      rw [if_pos hpre, List.drop_append_of_le_length hlen]
    · next hpre =>
      obtain ⟨⟨a', b'⟩, hr', hab⟩ := Option.map_eq_some_iff.mp h
      cases hab
      rw [if_neg hpre, findCaseless_append hr' ys]
      rfl

/-- Bytes none of which lowers to the pattern's first byte hold no match. -/
theorem findCaseless_skip {b0 : UInt8} (hp : p.head? = some b0) {xs : List UInt8}
    (hx : ∀ x ∈ xs, lowerByte x ≠ b0) (ys : List UInt8) :
    findCaseless p (xs ++ ys) = (findCaseless p ys).map fun r => (xs ++ r.1, r.2) := by
  obtain ⟨ps, rfl⟩ : ∃ ps, p = b0 :: ps := by
    cases p with
    | nil => cases hp
    | cons q ps => cases hp; exact ⟨ps, rfl⟩
  induction xs with
  | nil => simp
  | cons x xs ih =>
    have hfront : ¬ ((b0 :: ps).isPrefixOf (((x :: xs) ++ ys).take (ps.length + 1) |>.map lowerByte)
        = true) := by
      simp only [List.cons_append, List.take_succ_cons, List.map_cons, List.isPrefixOf,
        Bool.and_eq_true, beq_iff_eq]
      exact fun h => hx x List.mem_cons_self h.1.symm
    rw [List.cons_append, findCaseless, ← List.cons_append, List.length_cons, if_neg hfront,
      ih (fun y hy => hx y (List.mem_cons_of_mem x hy)), Option.map_map]
    rfl

/-- A pattern in lower case is found at the front of a text that starts with it. -/
theorem findCaseless_front (hp : p ≠ []) (hlow : p.map lowerByte = p) (ys : List UInt8) :
    findCaseless p (p ++ ys) = some ([], ys) := by
  obtain ⟨b, ps, rfl⟩ := List.exists_cons_of_ne_nil hp
  rw [List.cons_append, findCaseless, ← List.cons_append, List.take_left', hlow,
    if_pos (List.isPrefixOf_iff_prefix.mpr (List.prefix_refl _)), List.drop_left']
  · rfl
  · rfl

end Search

section Page

open Text.Utf8 in
/-- No byte of an escaped title lowers to `<`. -/
theorem lowerByte_ne_of_escape (t : String) :
    ∀ x ∈ encode (Markup.escape t), lowerByte x ≠ 60 := by
  intro x hx hlow
  have hlt := lowerByte_eq_lt hlow
  rw [encode_eq_flatMap, List.mem_flatMap] at hx
  obtain ⟨c, hc, hxc⟩ := hx
  have hnot := Markup.lt_not_mem_escape t
  by_cases hhigh : 0x80 ≤ c.toNat
  · have := high_of_mem_utf8EncodeChar hhigh hxc
    subst hlt
    exact absurd this (by decide)
  · rw [utf8EncodeChar_one (by omega), List.mem_singleton] at hxc
    subst hlt
    have hc60 : c.toNat = 60 := by
      have := congrArg UInt8.toNat hxc
      rw [toNat_ofNat_lt (by omega)] at this
      simpa using this.symm
    have hc' : c = '<' := by rw [← Char.ofNat_toNat c, hc60]
    exact hnot (hc' ▸ hc)

/-- The bytes of the fixed parts of a page: the head ends in its first title tag, the text after
the title starts with the closing tag, which opens with `<` and is in lower case, and the tail ends
in `>`. The kernel reads them all in one check. -/
theorem page_fragments :
    (findCaseless titleOpen (Text.Utf8.encode Render.Page.head)).map Prod.snd = some [] ∧
      (Text.Utf8.encode Render.Page.afterTitle).take 8 = titleClose ∧
      titleClose.head? = some 60 ∧ titleClose.map lowerByte = titleClose ∧
      (Text.Utf8.encode Render.Page.tail).getLast? = some 62 := by
  decide +kernel

/-- The title element of a page holds the escaped title. -/
theorem titleBytes_page (root : Entry) (title : String) :
    titleBytes (Text.Utf8.encode (Render.page root title)) =
      some (Text.Utf8.encode (Markup.escape title)) := by
  obtain ⟨hfound, htake, hclose, hlow, -⟩ := page_fragments
  obtain ⟨⟨h0, rest⟩, hhead, hrest⟩ := Option.map_eq_some_iff.mp hfound
  cases hrest
  have hafter : Text.Utf8.encode Render.Page.afterTitle =
      titleClose ++ (Text.Utf8.encode Render.Page.afterTitle).drop 8 := by
    rw [← htake, List.take_append_drop]
  simp only [Render.page, Text.Utf8.encode_append, List.append_assoc]
  rw [titleBytes, findCaseless_append hhead, List.nil_append]
  dsimp only
  rw [findCaseless_skip hclose (lowerByte_ne_of_escape title), hafter,
    List.append_assoc, findCaseless_front (List.ne_nil_of_mem (List.mem_of_head? hclose)) hlow]
  simp

/-- Reading the title of a page gives the title, trimmed; a blank title is none. -/
theorem pageTitle_page (root : Entry) (title : String) :
    pageTitle (Text.Utf8.encode (Render.page root title)) =
      if Text.trim title = "" then none else some (Text.trim title) := by
  simp only [pageTitle, titleBytes_page, Text.Utf8.decode_encode, Markup.unescape_escape]

end Page

section Reading

open Disk

/-- Bytes that do not end in a zero have no zeros past the stored ones. -/
theorem contents_of_getLast? {data : List UInt8} {size : Nat}
    (h : (contents data size).getLast? ≠ some 0) : contents data size = data.take size := by
  unfold contents at h ⊢
  cases hz : size - data.length with
  | zero => simp
  | succ n =>
    rw [hz, List.getLast?_append, List.getLast?_replicate] at h
    simp at h

/-- A file that does not end in a zero byte reads the same with the zeros past its stored bytes
cut. -/
theorem readFileCut_zero_of_readFile {d : Disk} {p : OsPath} {bs : List UInt8}
    (h : d.readFile p = .ok bs) (hlast : bs.getLast? ≠ some 0) : d.readFileCut p 0 = .ok bs := by
  unfold Disk.readFile at h
  unfold Disk.readFileCut
  split at h
  · cases h
  · next data size mtime hlook =>
    cases h
    rw [Nat.zero_min, List.replicate_zero, List.append_nil, ← contents_of_getLast? hlast]
  · cases h
  · cases h
  -- a followed link never stands at the end of a lookup; both reads give no bytes there
  · exact h

/-- A page ends in the `>` of its closing tag. -/
theorem getLast?_page (root : Entry) (title : String) :
    (Text.Utf8.encode (Render.page root title)).getLast? = some 62 := by
  simp only [Render.page, Text.Utf8.encode_append]
  rw [List.getLast?_append, page_fragments.2.2.2.2]
  rfl

/-- Reading the title of a file that holds a page gives the page's title, trimmed; a blank title
is none. -/
theorem readTitle_page (d : Disk) (path : String) (root : Entry) (title : String)
    (h : d.readFile path = .ok (Text.Utf8.encode (Render.page root title))) :
    readTitle d path = .ok (if Text.trim title = "" then none else some (Text.trim title)) := by
  have hlast : (Text.Utf8.encode (Render.page root title)).getLast? ≠ some 0 := by
    rw [getLast?_page]; decide
  simp only [readTitle, readFileCut_zero_of_readFile h hlast, pageTitle_page]

/-- A disk whose root directory holds `bytes` as the file `name`. -/
def fileShelf (name : String) (bytes : List UInt8) : Disk :=
  ⟨.dir [(name, .file bytes bytes.length 0)], "/", 0⟩

theorem fileShelf_entry {name : String} (hn : Path.IsComponent name) (bytes : List UInt8) :
    (fileShelf name bytes).Entry (Path.join ["/", name]) [] name := by
  have hroot : (fileShelf name bytes).Direct "/" [] := ⟨by cbv, ⟨_, rfl⟩⟩
  exact hroot.join (by decide) hn

theorem fileShelf_readFile (bytes : List UInt8) :
    (fileShelf "c.html" bytes).readFile "/c.html" = .ok bytes := by
  have hjoin : Path.join ["/", "c.html"] = "/c.html" :=
    @Path.join_rooted [] ["c.html"] (by simp [Path.IsComponent])
  have h : (fileShelf "c.html" bytes).Entry (Path.join ["/", "c.html"]) [] "c.html" :=
    fileShelf_entry (by simp [Path.IsComponent]) bytes
  rw [hjoin] at h
  exact h.readFile_file (by cbv) rfl

/-- A title with quotes, markup, a reference, a closing title tag and blanks round it. -/
theorem readTitle_page_markup :
    (fileShelf "c.html" (Text.Utf8.encode (Render.page ⟨"file", "./a.txt", 3, none⟩
        " \"<b>&amp;lt;</title>\n"))).readFile "/c.html" =
      .ok (Text.Utf8.encode (Render.page ⟨"file", "./a.txt", 3, none⟩ " \"<b>&amp;lt;</title>\n")) ∧
    readTitle (fileShelf "c.html" (Text.Utf8.encode (Render.page ⟨"file", "./a.txt", 3, none⟩
        " \"<b>&amp;lt;</title>\n"))) "/c.html" = .ok (some "\"<b>&amp;lt;</title>") := by
  have hread := fileShelf_readFile
    (Text.Utf8.encode (Render.page ⟨"file", "./a.txt", 3, none⟩ " \"<b>&amp;lt;</title>\n"))
  have htrim : Text.trim " \"<b>&amp;lt;</title>\n" = "\"<b>&amp;lt;</title>" := by decide
  refine ⟨hread, ?_⟩
  rw [readTitle_page _ _ _ _ hread, htrim]
  rfl

end Reading

end Store

end TreeCatalog
