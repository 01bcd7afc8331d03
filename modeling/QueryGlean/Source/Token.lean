import QueryGlean.Source.Tree
import QueryGlean.Source.Lexical

namespace QueryGlean

inductive Token
  | finish
  | name
  | literal (text : String)
  | privateName
  | number
  | comment
  | markupComment
  | interpreterLine
  | staticGetter
  | doubleQuotedText
  | singleQuotedText
  | escape
  | templateText
  | regexBody
  | regexEnd
  | regexFlags
  | hyphenatedName
  | markupText
  | characterReference
  | doubleQuotedMarkup
  | singleQuotedMarkup
  | conditionalMark
  | omittedSemicolon
  | omittedBody
deriving DecidableEq, Repr, Hashable, Inhabited

namespace Token

def kind? : Token → Option Kind
  | finish | omittedSemicolon | omittedBody => none
  | name => some .identifier
  | literal "default" => some .defaultMark
  | literal _ | conditionalMark | regexEnd => some .mark
  | comment | markupComment => some .comment
  | _ => some .word

-- Whether a token may have space in front. Of those that may not, the urgent ones are taken before
-- any other token.
inductive Standing
  | spaced
  | adjoining
  | urgent
deriving DecidableEq, Repr

def standing : Token → Standing
  | doubleQuotedText | singleQuotedText | doubleQuotedMarkup | singleQuotedMarkup | regexEnd => .urgent
  | escape | regexBody | regexFlags => .adjoining
  | _ => .spaced

def read : Token → Lexical
  | literal s => Lexical.literal s
  | name => Lexical.name
  | privateName => Lexical.privateName
  | number => Lexical.number
  | comment => Lexical.comment
  | interpreterLine => Lexical.interpreterLine
  | staticGetter => Lexical.staticGetter
  | doubleQuotedText => Lexical.quotedText '"'
  | singleQuotedText => Lexical.quotedText '\''
  | escape => Lexical.escape
  | regexBody => Lexical.regexBody
  | regexEnd => Lexical.literal "/"
  | regexFlags => Lexical.regexFlags
  | hyphenatedName => Lexical.hyphenated
  | characterReference => Lexical.characterReference
  | doubleQuotedMarkup => Lexical.quotedMarkup '"'
  | singleQuotedMarkup => Lexical.quotedMarkup '\''
  | finish | markupComment | templateText | markupText | conditionalMark | omittedSemicolon | omittedBody =>
    fun _ _ => none

def isKeyword : Token → Bool
  | literal s => s.toList.all Character.isNamePart
  | _ => false

end Token

end QueryGlean
