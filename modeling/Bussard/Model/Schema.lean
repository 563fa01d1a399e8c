import Bussard.Model.Dpt
import Bussard.Secure.Crypto
import Bussard.Transport.Cemi
import Std.Data.TreeMap.Lemmas

/-! The records of the project model that the write checks and the downloads read. -/
namespace Bussard.Schema

open Codec Secure Transport

/-- A group of the model. -/
structure Group where
  name : String
  isProtected : Bool
  secure : Bool
  dpt : Option Dpt
  deriving DecidableEq, Repr

abbrev Groups := GroupAddress → Option Group

/-- The group keys of a keyring. -/
abbrev GroupKeys := GroupAddress → Option Key16

/-- The part of a communication object that decides its security. -/
structure ComObject where
  secure : Bool
  deriving DecidableEq, Repr

abbrev ComObjects := Std.TreeMap UInt16 ComObject

end Bussard.Schema
