import Marginalia.Site.Settings

/-!
# Links

The links to the files of a project. A path that is a link of its own, from the
root or with a scheme, stays as it is; any other is taken from the directory of
the project. In production images come from the image server, scaled.
-/

namespace Marginalia.Url

/-- The characters that stand for themselves in a link. -/
def isUnreserved (c : Char) : Bool :=
  c.isAlphanum || c == '_' || c == '.' || c == '-' || c == '~' || c == '/'

/-- The hexadecimal digit of a number below 16, in capitals. -/
def hexDigit (n : Nat) : Char := (Nat.digitChar n).toUpper

/-- A byte as a percent sign and two hexadecimal digits. -/
def escapeByte (b : UInt8) : Text := ['%', hexDigit (b.toNat / 16), hexDigit (b.toNat % 16)]

/-- A character of a link: itself, or its bytes escaped. -/
def encodeChar (c : Char) : Text :=
  if isUnreserved c then [c] else (String.utf8EncodeChar c).flatMap escapeByte

/-- A text as part of a link. -/
def encode (s : Text) : Text := s.flatMap encodeChar

/-- Whether a path is a link of its own. -/
def isAbsolute (path : Text) : Bool := Text.startsWithAny (['/'] :: Settings.schemes) path

/-- The path of a file, relative to a project, in a link. -/
def relative (id path : Text) : Text :=
  encode id ++ '/' :: encode (Text.dropStart ['.', '/'] path)

/-- The link to a file of a project. -/
def ofFile (id path : Text) : Text :=
  if isAbsolute path then path else "/api/files/".toList ++ relative id path

/-- The limits an image is scaled to. -/
structure Limits where
  width : Option Int
  height : Option Int
  deriving DecidableEq, Repr

/-- The limits as the image server is asked for them. -/
def Limits.query (limits : Limits) : Text :=
  let scale (name : String) (n : Int) : Text := name.toList ++ (toString n).toList
  match (limits.width.map (scale "w-")).toList ++ (limits.height.map (scale "h-")).toList with
  | [] => []
  | scales => "?tr=".toList ++ Text.joinWith ',' scales

/-- The link to an image of a project. -/
def ofImage (settings : Settings) (limits : Limits) (id path : Text) : Text :=
  if isAbsolute path || !settings.isProduction then ofFile id path
  else settings.imageUrl ++ '/' :: relative id path ++ limits.query

end Marginalia.Url
