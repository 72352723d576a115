import TreeCatalog.Entry.Basic
import TreeCatalog.Size.Format
import TreeCatalog.Markup.Escape
import TreeCatalog.Render.Outline
/-! # HTML page of a catalog

The page is the layout of a `tree -H` listing: a fixed head, the escaped title in the title element
and the heading, the tree as one line per entry (prefix, connector, size column, two non-breaking
spaces, escaped basename, a line break), and a footer with the total size and the directory and
file counts. The tree uses the connectors of the console outline; a directory's children follow it
when it has any, and every other entry stands alone. -/

namespace TreeCatalog.Render

namespace Page

/-- The page up to the title element's text. -/
def head : String :=
  "<!DOCTYPE html>\n" ++
  "<html>\n" ++
  "<head>\n" ++
  " <meta http-equiv=\"Content-Type\" content=\"text/html; charset=UTF-8\">\n" ++
  " <meta name=\"Author\" content=\"Made by \x27tree\x27\">\n" ++
  " <meta name=\"GENERATOR\" content=\"$Version: $ tree v1.7.0 (c) 1996 - 2014 by Steve Baker, Thomas Moore, Francesc Rocher, Florian Sesser, Kyosuke Tokoro $\">\n" ++
  " <title>"

/-- From the end of the title element to the heading's text. -/
def afterTitle : String :=
  "</title>\n" ++
  " <style type=\"text/css\">\n" ++
  "  <!-- \n" ++
  "  BODY \x7b font-family : ariel, monospace, sans-serif; \x7d\n" ++
  "  P \x7b font-weight: normal; font-family : ariel, monospace, sans-serif; color: black; background-color: transparent;\x7d\n" ++
  "  B \x7b font-weight: normal; color: black; background-color: transparent;\x7d\n" ++
  "  A:visited \x7b font-weight : normal; text-decoration : none; background-color : transparent; margin : 0px 0px 0px 0px; padding : 0px 0px 0px 0px; display: inline; \x7d\n" ++
  "  A:link    \x7b font-weight : normal; text-decoration : none; margin : 0px 0px 0px 0px; padding : 0px 0px 0px 0px; display: inline; \x7d\n" ++
  "  A:hover   \x7b color : #000000; font-weight : normal; text-decoration : underline; background-color : yellow; margin : 0px 0px 0px 0px; padding : 0px 0px 0px 0px; display: inline; \x7d\n" ++
  "  A:active  \x7b color : #000000; font-weight: normal; background-color : transparent; margin : 0px 0px 0px 0px; padding : 0px 0px 0px 0px; display: inline; \x7d\n" ++
  "  .VERSION \x7b font-size: small; font-family : arial, sans-serif; \x7d\n" ++
  "  .NORM  \x7b color: black;  background-color: transparent;\x7d\n" ++
  "  .FIFO  \x7b color: purple; background-color: transparent;\x7d\n" ++
  "  .CHAR  \x7b color: yellow; background-color: transparent;\x7d\n" ++
  "  .DIR   \x7b color: blue;   background-color: transparent;\x7d\n" ++
  "  .BLOCK \x7b color: yellow; background-color: transparent;\x7d\n" ++
  "  .LINK  \x7b color: aqua;   background-color: transparent;\x7d\n" ++
  "  .SOCK  \x7b color: fuchsia;background-color: transparent;\x7d\n" ++
  "  .EXEC  \x7b color: green;  background-color: transparent;\x7d\n" ++
  "  -->\n" ++
  " </style>\n" ++
  "</head>\n" ++
  "<body>\n" ++
  "\t<h1>"

/-- From the end of the heading to the tree. -/
def afterHeading : String :=
  "</h1><p>\n" ++
  "\t"

/-- From the end of the tree to the total size. -/
def afterTree : String :=
  "\n" ++
  "\t<br><br>\n" ++
  "\t</p>\n" ++
  "\t<p>\n" ++
  "\n" ++
  " "

/-- Between the total size and the directory count. -/
def usedIn : String :=
  " used in "

/-- Between the directory count and the file count. -/
def directoriesText : String :=
  " directories, "

/-- From the end of the file count to the end of the page. -/
def tail : String :=
  " files\n" ++
  "\t<br><br>\n" ++
  "\t</p>\n" ++
  "\t<hr>\n" ++
  "\t<p class=\"VERSION\">\n" ++
  "\t\t tree v1.7.0 © 1996 - 2014 by Steve Baker and Thomas Moore <br>\n" ++
  "\t\t HTML output hacked and copyleft © 1998 by Francesc Rocher <br>\n" ++
  "\t\t JSON output hacked and copyleft © 2014 by Florian Sesser <br>\n" ++
  "\t\t Charsets / OS/2 support © 2001 by Kyosuke Tokoro\n" ++
  "\t</p>\n" ++
  "</body>\n" ++
  "</html>"

end Page

mutual
/-- The page lines of a list of sibling entries under `pre`; the last one gets the last connector. -/
def branchesText (pre : String) : List Entry → String
  | [] => ""
  | [e] => branchText pre true e
  | e :: es => branchText pre false e ++ branchesText pre es

/-- The page line of one entry, then its children's lines when it is a directory. -/
def branchText (pre : String) (last : Bool) : Entry → String
  | ⟨k, n, s, cs⟩ =>
    pre ++ Outline.connector last ++ Size.column s ++ "&nbsp;&nbsp;" ++ Markup.escape (Path.base n) ++
      "<br>\n" ++
      (if k == Entry.directoryKind then
        match cs with
        | none => ""
        | some cs => branchesText (pre ++ Outline.indent last) cs
      else "")
end

/-- The complete page for a catalog tree under a title. -/
def page (root : Entry) (title : String) : String :=
  let t := Markup.escape title
  Page.head ++ t ++ Page.afterTitle ++ t ++ Page.afterHeading ++ branchText "" true root ++
    Page.afterTree ++ Size.text root.size ++ Page.usedIn ++ toString root.countDirectories ++
    Page.directoriesText ++ toString root.countFiles ++ Page.tail

end TreeCatalog.Render
