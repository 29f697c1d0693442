/-
# Preparing a `DELETE`

The text of a statement decides whether it runs at all. This is the part of
SQLite's grammar that a parameterised single-table delete needs:

    DELETE FROM table WHERE column=?n AND column=?n … RETURNING column

A text outside the grammar is not prepared; one inside it selects the rows in
which every named column equals its parameter.
-/
import Mathlib

namespace SignalConnector

/-! ### Tokens -/

/-- A word read so far, last character first, as a token if there is one. -/
def sqlWord (word : List Char) : List String := if word.isEmpty then [] else [String.ofList word.reverse]

/-- White space separates tokens; the comma and the equals sign are tokens by themselves. -/
def sqlTokensFrom (word : List Char) : List Char → List String
  | [] => sqlWord word
  | c :: cs =>
    if c.isWhitespace then sqlWord word ++ sqlTokensFrom [] cs
    else if c = ',' ∨ c = '=' then sqlWord word ++ String.ofList [c] :: sqlTokensFrom [] cs
    else sqlTokensFrom (c :: word) cs

def sqlTokens (text : String) : List String := sqlTokensFrom [] text.toList

/-! ### The statement -/

/-- `column = ?parameter`. -/
structure SqlCondition where
  column : String
  parameter : ℕ
  deriving DecidableEq

structure DeleteStatement where
  table : String
  conditions : List SqlCondition
  returning : String
  deriving DecidableEq

/-- `?1` to `?9`. -/
def parseParameter (token : String) : Option ℕ :=
  match token.toList with
  | ['?', c] => if '1' ≤ c ∧ c ≤ '9' then some (c.toNat - '0'.toNat) else none
  | _ => none

/-- The conjunction after `WHERE`, and the tokens behind it. -/
def parseConditions : List String → Option (List SqlCondition × List String)
  | column :: "=" :: token :: "AND" :: rest =>
    (parseParameter token).bind fun n =>
      (parseConditions rest).map fun (conditions, rest) => (⟨column, n⟩ :: conditions, rest)
  | column :: "=" :: token :: rest => (parseParameter token).map fun n => ([⟨column, n⟩], rest)
  | _ => none

/-- The statement, if the text is one. -/
def parseDelete (text : String) : Option DeleteStatement :=
  match sqlTokens text with
  | "DELETE" :: "FROM" :: table :: "WHERE" :: rest =>
    match parseConditions rest with
    | some (conditions, ["RETURNING", column]) => some ⟨table, conditions, column⟩
    | _ => none
  | _ => none

/-- The rows the statement deletes, for the values of columns and parameters. -/
def DeleteStatement.selects {R V : Type} [DecidableEq V] (statement : DeleteStatement)
    (column : String → R → Option V) (parameters : List V) (row : R) : Bool :=
  statement.conditions.all fun condition =>
    match column condition.column row, parameters[condition.parameter - 1]? with
    | some value, some parameter => value = parameter
    | _, _ => false

end SignalConnector
