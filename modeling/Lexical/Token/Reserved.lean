/-!
# Reserved words

The spellings that are words of the language and never names. A word of the source is compared
with them as a whole and with its case, so nothing that merely begins like one is reserved.
-/

set_option autoImplicit false

namespace Lexical

inductive Reserved where
  | andWord
  | classWord
  | elseWord
  | falseWord
  | fnWord
  | forWord
  | ifWord
  | letWord
  | nilWord
  | orWord
  | printWord
  | returnWord
  | superWord
  | thisWord
  | trueWord
  | whileWord
  deriving DecidableEq

namespace Reserved

def spelling : Reserved → String
  | andWord => "and"
  | classWord => "class"
  | elseWord => "else"
  | falseWord => "false"
  | fnWord => "fn"
  | forWord => "for"
  | ifWord => "if"
  | letWord => "let"
  | nilWord => "nil"
  | orWord => "or"
  | printWord => "print"
  | returnWord => "return"
  | superWord => "super"
  | thisWord => "this"
  | trueWord => "true"
  | whileWord => "while"

/-- Every reserved word, in the order of their spellings. -/
def all : List Reserved :=
  [andWord, classWord, elseWord, falseWord, fnWord, forWord, ifWord, letWord, nilWord, orWord,
    printWord, returnWord, superWord, thisWord, trueWord, whileWord]

/-- The reserved word of a spelling, if it is one. -/
def ofSpelling? (s : String) : Option Reserved := all.find? fun w => w.spelling == s

theorem mem_all (w : Reserved) : w ∈ all := by cases w <;> decide

end Reserved
end Lexical
