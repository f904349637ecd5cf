import ParseKit.Json
import ParseKit.Token

/-! Tokens as JSON objects. The end of the input is shown on line zero. -/

namespace ParseKit

namespace Lexeme

def toJson : Lexeme → Json
  | number value => .ofMembers [("kind", .ofString "number"), ("value", .ofInt value)]
  | string text => .ofMembers [("kind", .ofString "string"), ("value", .ofString text)]
  | identifier name => .ofMembers [("kind", .ofString "identifier"), ("value", .ofString name)]
  | operator symbol => .ofMembers [("kind", .ofString "operator"), ("value", .ofString symbol)]
  | endOfLine => .ofMembers [("kind", .ofString "eol")]

end Lexeme

def Token.toJson : Token → Json
  | scanned line lexeme => .ofMembers [("line", .ofNat line), ("kind", lexeme.toJson)]
  | endOfInput =>
    .ofMembers [("line", .ofNat 0), ("kind", .ofMembers [("kind", .ofString "eof")])]

end ParseKit
