/-
Beginnings and endings of texts.
-/
namespace ChatDice

/-- What follows `start` in a text that begins with it. -/
def stripStart? (start text : String) : Option String :=
  (start.toList.isPrefixOf? text.toList).map String.ofList

/-- What precedes `ending` in a text that ends with it. -/
def stripEnding? (ending text : String) : Option String :=
  (ending.toList.isSuffixOf? text.toList).map String.ofList

end ChatDice
