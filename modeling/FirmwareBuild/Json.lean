import FirmwareBuild.Text

/-! # JSON values

A JSON value as it was written. Strings and the names of members are texts, except
that an escape can name half of a surrogate pair; a string in which such a half
stands alone is well formed and has no text. Numbers keep their spelling, since
nothing here computes with them, and an object keeps its members in order, with
repeated names. -/

namespace FirmwareBuild

inductive Json where
  | null
  | bool (value : Bool)
  | number (spelling : Text)
  | string (text : Option Text)
  | array (items : List Json)
  | object (members : List (Option Text × Json))
  deriving Inhabited

end FirmwareBuild
