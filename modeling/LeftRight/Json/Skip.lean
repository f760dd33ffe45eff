import LeftRight.Json.Token

/-!
# Skipping values

A value of no interest is skipped token by token. What is left to do is told by what may come
next and by the arrays and objects that are open, the innermost first. Any depth will do.
-/

namespace LeftRight.Json

/-- What is being skipped from within. -/
inductive Nest where
  /-- An array. -/
  | array
  /-- An object. -/
  | object
  deriving DecidableEq, Repr

/-- What may come next. -/
inductive Expected where
  /-- A value. -/
  | value
  /-- A value, or the end of an array that holds none. -/
  | valueOrEnd
  /-- A key. -/
  | key
  /-- A key, or the end of an object that holds none. -/
  | keyOrEnd
  /-- The colon after a key. -/
  | colon
  /-- Whatever follows a value that is complete. -/
  | next
  deriving DecidableEq, Repr

/-- What to expect after the first token of a value. -/
def skipValueToken (nests : List Nest) : Token → Option (Expected × List Nest)
  | .null | .bool _ | .string _ | .number _ => some (.next, nests)
  | .openBracket => some (.valueOrEnd, .array :: nests)
  | .openBrace => some (.keyOrEnd, .object :: nests)
  | _ => none

/-- What to expect after a token, if the token is itself as expected. -/
def skipToken (expected : Expected) (nests : List Nest) (token : Token) :
    Option (Expected × List Nest) :=
  match expected with
  | .value => skipValueToken nests token
  | .valueOrEnd =>
    match token with
    | .closeBracket => some (.next, nests.tail)
    | token => skipValueToken nests token
  | .key =>
    match token with
    | .string _ => some (.colon, nests)
    | _ => none
  | .keyOrEnd =>
    match token with
    | .string _ => some (.colon, nests)
    | .closeBrace => some (.next, nests.tail)
    | _ => none
  | .colon =>
    match token with
    | .colon => some (.value, nests)
    | _ => none
  | .next =>
    match nests, token with
    | .array :: _, .comma => some (.value, nests)
    | .array :: outer, .closeBracket => some (.next, outer)
    | .object :: _, .comma => some (.key, nests)
    | .object :: outer, .closeBrace => some (.next, outer)
    | _, _ => none

/-- Skip until nothing is open any more, and return the tokens that follow. -/
def skip : Expected → List Nest → List Token → Option (List Token)
  | .next, [], rest => some rest
  | _, _, [] => none
  | expected, nests, token :: rest =>
    match skipToken expected nests token with
    | some (expected, nests) => skip expected nests rest
    | none => none

/-- Skip one value, and return the tokens that follow. -/
def skipValue (tokens : List Token) : Option (List Token) := skip .value [] tokens

end LeftRight.Json
