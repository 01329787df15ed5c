import PageBindings.Text.Blank

/-!
# Tokens of markup

Markup is a sequence of texts, opening tags and closing tags (`Token`).  Every text can be read as markup
(`Token.tokens`): what is left open at the end of the text ends there, and odd characters in a tag are taken for
attribute names.  Entities stand for the characters that markup has a use for, in texts and in quoted values.
-/

namespace PageBindings.Markup

/-- A piece of markup. -/
inductive Token where
  | text (text : String)
  | opening (tag : String) (attributes : List (String × String)) (selfClosing : Bool)
  | closing (tag : String)
deriving DecidableEq, Repr

/-- Replaces the entities of quotes, angle brackets and ampersands by these characters. -/
def decodeEntities : List Char → List Char
  | [] => []
  | '&' :: 'q' :: 'u' :: 'o' :: 't' :: ';' :: rest => '"' :: decodeEntities rest
  | '&' :: '#' :: '3' :: '9' :: ';' :: rest => '\'' :: decodeEntities rest
  | '&' :: 'l' :: 't' :: ';' :: rest => '<' :: decodeEntities rest
  | '&' :: 'g' :: 't' :: ';' :: rest => '>' :: decodeEntities rest
  | '&' :: 'a' :: 'm' :: 'p' :: ';' :: rest => '&' :: decodeEntities rest
  | c :: rest => c :: decodeEntities rest

/-- Letters in lower case, within ASCII. -/
def lowerCase (cs : List Char) : String :=
  String.ofList (cs.map Char.toLower)

/-- The characters of tags. -/
def isTagChar (c : Char) : Bool :=
  c.isAlphanum || c == '-'

/-- The characters of attribute names. -/
def isAttributeChar (c : Char) : Bool :=
  !Text.isAsciiBlank c && c != '=' && c != '>' && c != '/'

/-- The characters of values without quotes. -/
def isBareChar (c : Char) : Bool :=
  !Text.isAsciiBlank c && c != '>'

/-- The text without the ASCII blanks in front. -/
def skipBlanks (cs : List Char) : List Char :=
  cs.dropWhile Text.isAsciiBlank

/--
The value of an attribute, after its equals sign and blanks.  A quoted value ends at its quote, or with the text.
-/
def readValue : List Char → String × List Char
  | '"' :: rest =>
    (String.ofList (decodeEntities (rest.takeWhile (· != '"'))), (rest.dropWhile (· != '"')).drop 1)
  | '\'' :: rest =>
    (String.ofList (decodeEntities (rest.takeWhile (· != '\''))), (rest.dropWhile (· != '\'')).drop 1)
  | cs => (String.ofList (cs.takeWhile isBareChar), cs.dropWhile isBareChar)

/-- An attribute; without an equals sign its value is empty. -/
def readAttribute (cs : List Char) : (String × String) × List Char :=
  let name := lowerCase (cs.takeWhile isAttributeChar)
  match skipBlanks (cs.dropWhile isAttributeChar) with
  | '=' :: rest =>
    let (value, rest) := readValue (skipBlanks rest)
    ((name, value), rest)
  | rest => ((name, ""), rest)

/--
The attributes of a tag, whether it closes itself, and what follows the tag.  A slash anywhere between attributes
closes the tag.  `fuel` bounds the number of attributes and slashes.
-/
def readAttributes : Nat → List Char → List (String × String) × Bool × List Char
  | 0, cs => ([], false, cs)
  | fuel + 1, cs =>
    match skipBlanks cs with
    | [] => ([], false, [])
    | '>' :: rest => ([], false, rest)
    | '/' :: rest =>
      let (attributes, _, rest) := readAttributes fuel rest
      (attributes, true, rest)
    | c :: rest =>
      let (first, rest) := readAttribute (c :: rest)
      let (attributes, selfClosing, rest) := readAttributes fuel rest
      (first :: attributes, selfClosing, rest)

/-- The rest of a closing tag: everything up to the angle bracket is its name. -/
def readClosing (cs : List Char) : Token × List Char :=
  (.closing (lowerCase (Text.trimmed (cs.takeWhile (· != '>')))), (cs.dropWhile (· != '>')).drop 1)

/-- The rest of an opening tag, after its angle bracket. -/
def readOpening (cs : List Char) : Token × List Char :=
  let rest := cs.dropWhile isTagChar
  let (attributes, selfClosing, rest) := readAttributes (rest.length + 1) rest
  (.opening (lowerCase (cs.takeWhile isTagChar)) attributes selfClosing, rest)

/-- The text up to the next angle bracket. -/
def readText (cs : List Char) : Token × List Char :=
  (.text (String.ofList (decodeEntities (cs.takeWhile (· != '<')))), cs.dropWhile (· != '<'))

/-- The token at the front of a text. -/
def readToken : List Char → Token × List Char
  | '<' :: '/' :: rest => readClosing rest
  | '<' :: rest => readOpening rest
  | cs => readText cs

/-- Tokens up to the end of the text; `fuel` bounds their number. -/
def readTokens : Nat → List Char → List Token
  | _, [] => []
  | 0, _ :: _ => []
  | fuel + 1, c :: cs =>
    let (token, rest) := readToken (c :: cs)
    token :: readTokens fuel rest

/-- The tokens of a text; every token takes a character or more. -/
def tokens (text : String) : List Token :=
  readTokens text.toList.length text.toList

end PageBindings.Markup
