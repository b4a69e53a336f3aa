import SqlSession.Config.Basic

/-!
# Configurations as texts

A configuration is written as a text and read from one by a codec, which is given from outside. The
two operations pass on what it says, and make its failures errors of a statement.

Specification: §10.5.
-/

namespace SqlSession.Config

/-- What writes configurations as texts and reads them. A failure comes with its description. -/
structure Codec where
  write : Config → Except String String
  read : String → Except String Config

/-- The configuration of a text. Spec §10.5, `from_json`. -/
def fromJson (k : Codec) (text : String) : Except SqlError Config :=
  (k.read text).mapError fun detail ↦ .invalidArgument (.config detail)

/-- The text of a configuration. Spec §10.5, `to_json`. -/
def toJson (k : Codec) (c : Config) : Except SqlError String :=
  (k.write c).mapError fun detail ↦ .internal (.serialization detail)

end SqlSession.Config
