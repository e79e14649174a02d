import DocShape.Json.Writer

/-!
# Responses of a command

A response is one JSON object on a line of its own.
-/

set_option autoImplicit false

namespace DocShape.Command

open Json (Value)

inductive Response where
  | accepted (document : Value)
  | refused (code : String) (path : Option String) (message : String)

namespace Response

def toValue : Response → Value
  | .accepted document => .object [("status", .string "ok"), ("data", document)]
  | .refused code path message =>
      .object [
        ("status", .string "error"),
        ("code", .string code),
        ("key_path", match path with
          | some path => .string path
          | none => .null),
        ("message", .string message)]

def line (response : Response) : String :=
  response.toValue.write ++ "\n"

end Response

end DocShape.Command
