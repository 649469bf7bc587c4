/-!
# Characters of YAML documents

* `Yaml.isAllowed` — what a document may contain;
* `Yaml.isBreak`, `Yaml.isBlank`, `Yaml.endsWord` — what sets words and lines apart;
* `Yaml.unifyBreaks` — a document with one way to end a line.
-/

namespace TableRecipe.Yaml

/-- whether a document may contain the character: no controls but tab and line ends -/
def isAllowed (c : Char) : Bool :=
  let code := c.toNat
  code = 0x09 || code = 0x0a || code = 0x0d || (0x20 ≤ code && code ≤ 0x7e) || code = 0x85
    || (0xa0 ≤ code && code ≤ 0xfffd) || 0x10000 ≤ code

/-- a line end after `unifyBreaks`: a line feed, or one of the separators that stay themselves -/
def isBreak (c : Char) : Bool := c = '\n' || c.toNat = 0x2028 || c.toNat = 0x2029

/-- a blank or a tab -/
def isBlank (c : Char) : Bool := c = ' ' || c = '\t'

/-- a blank or a line end -/
def isGap (c : Char) : Bool := isBlank c || isBreak c

/-- whether a text starts with a blank or a line end, or is empty -/
def endsWord : List Char → Bool
  | [] => true
  | c :: _ => isGap c

/-- whether a text starts with a line end, or is empty -/
def endsLine : List Char → Bool
  | [] => true
  | c :: _ => isBreak c

/-- a character of names -/
def isNamePart (c : Char) : Bool :=
  ('0' ≤ c && c ≤ '9') || ('A' ≤ c && c ≤ 'Z') || ('a' ≤ c && c ≤ 'z') || c = '_' || c = '-'

/-- whether a line starts with a mark between documents: `---` or `...` as a word -/
def startsMark (mark : Char) : List Char → Bool
  | a :: b :: c :: rest => a = mark && b = mark && c = mark && endsWord rest
  | _ => false

/-- whether a line starts with either mark between documents -/
def startsDocumentMark (cs : List Char) : Bool := startsMark '-' cs || startsMark '.' cs

/-- a document whose lines end in line feeds, with carriage returns and next-line characters
replaced -/
def unifyBreaks : List Char → List Char
  | '\r' :: '\n' :: rest => '\n' :: unifyBreaks rest
  | c :: rest => (if c = '\r' || c.toNat = 0x85 then '\n' else c) :: unifyBreaks rest
  | [] => []

end TableRecipe.Yaml
