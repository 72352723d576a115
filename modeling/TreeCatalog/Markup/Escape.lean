/-! # Escaping markup text

Four characters are escaped in one pass: `"` as `&quot;`, `&` as `&amp;`, `<` as `&lt;` and `>` as
`&gt;`. Everything else, the apostrophe included, is kept. -/

namespace TreeCatalog.Markup

/-- The escaped form of one character. -/
def escapeChar : Char → List Char
  | '"' => "&quot;".toList
  | '&' => "&amp;".toList
  | '<' => "&lt;".toList
  | '>' => "&gt;".toList
  | c => [c]

/-- Text with the four markup characters escaped. -/
def escape (s : String) : String := String.ofList (s.toList.flatMap escapeChar)

theorem escapeChar_of_plain {c : Char} (h1 : c ≠ '"') (h2 : c ≠ '&') (h3 : c ≠ '<')
    (h4 : c ≠ '>') : escapeChar c = [c] := by
  unfold escapeChar; split <;> simp_all

end TreeCatalog.Markup
