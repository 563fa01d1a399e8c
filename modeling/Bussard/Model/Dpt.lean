import Mathlib.Algebra.Group.Nat.Defs
import Mathlib.Data.List.Basic

/-! Datapoint types: their payload sizes and the label tables of the enumerations (20.xxx) and bit
sets (21.xxx, 22.xxx). -/
namespace Bussard.Codec

/-- A datapoint type: a main number and an optional sub number. -/
structure Dpt where
  main : Nat
  sub : Option Nat
  deriving DecidableEq, Repr

/-- The size of a payload: some bits of the APCI, or whole octets. -/
inductive ApduSize where
  | bits (n : Nat)
  | bytes (n : Nat)
  deriving DecidableEq, Repr

/-- The payload size of the main types with a fixed width. -/
def Dpt.expectedSize (dpt : Dpt) : Option ApduSize :=
  match dpt.main with
  | 1 => some (.bits 1)
  | 2 | 23 => some (.bits 2)
  | 31 => some (.bits 3)
  | 3 => some (.bits 4)
  | 4 | 5 | 6 | 17 | 18 | 20 | 21 | 25 | 26 | 236 | 238 => some (.bytes 1)
  | 7 | 8 | 9 | 22 | 200 | 201 | 202 | 204 | 207 | 211 | 217 | 234 | 237 | 239 | 244 | 246 =>
      some (.bytes 2)
  | 10 | 11 | 30 | 203 | 205 | 206 | 209 | 223 | 225 | 232 | 240 | 250 | 254 => some (.bytes 3)
  | 12 | 13 | 14 | 15 | 27 | 210 | 214 | 220 | 231 | 241 | 253 | 276 => some (.bytes 4)
  | 215 | 216 | 218 | 248 | 252 => some (.bytes 5)
  | 212 | 219 | 221 | 222 | 224 | 229 | 235 | 242 | 245 | 249 | 251 | 274 => some (.bytes 6)
  | 271 | 272 => some (.bytes 7)
  | 19 | 29 | 213 | 230 | 243 | 255 | 273 => some (.bytes 8)
  | 265 | 268 => some (.bytes 9)
  | 247 | 257 | 266 => some (.bytes 12)
  | 16 | 269 => some (.bytes 14)
  | 256 => some (.bytes 16)
  | 270 => some (.bytes 20)
  | _ => none

/-- The value list of a DPT 20.xxx enumeration: code and label. -/
def enumTable (sub : Nat) : Option (List (UInt8 × String)) :=
  match sub with
  | 1 => some [(0, "autonomous"), (1, "slave"), (2, "master")]
  | 2 => some [(0, "Building in use"), (1, "Building not used"), (2, "Building protection")]
  | 3 => some [(0, "occupied"), (1, "standby"), (2, "not occupied")]
  | 4 => some [(0, "High"), (1, "Medium"), (2, "Low"), (3, "void")]
  | 5 => some [(0, "normal"), (1, "presence simulation"), (2, "night round")]
  | 7 => some [(1, "simple alarm"), (2, "basic alarm"), (3, "extended alarm")]
  | 8 => some [(0, "disabled"), (1, "enabled"), (2, "auto")]
  | 11 => some [
      (0, "no fault"), (1, "general device fault"), (2, "communication fault"),
      (3, "configuration fault"), (4, "hardware fault"), (5, "software fault"),
      (6, "insufficient non volatile memory"), (7, "insufficient volatile memory"),
      (8, "memory allocation command with size 0 received"), (9, "CRC error"),
      (10, "watchdog reset detected"), (11, "invalid opcode detected"),
      (12, "general protection fault"), (13, "maximal table length exceeded"),
      (14, "undefined load command received"), (15, "group address table is not sorted"),
      (16, "invalid connection number (TSAP)"), (17, "invalid group object number (ASAP)"),
      (18, "group object type exceeds max APDU length")]
  | 12 => some [
      (0, "no fault"), (1, "sensor fault"), (2, "process fault / controller fault"),
      (3, "actuator fault"), (4, "other fault")]
  | 13 => some [
      (0, "not active"), (1, "1 s"), (2, "2 s"), (3, "3 s"), (4, "5 s"), (5, "10 s"), (6, "15 s"),
      (7, "20 s"), (8, "30 s"), (9, "45 s"), (10, "1 min"), (11, "1.25 min"), (12, "1.5 min"),
      (13, "2 min"), (14, "2.5 min"), (15, "3 min"), (16, "5 min"), (17, "15 min"),
      (18, "20 min"), (19, "30 min"), (20, "1 h"), (21, "2 h"), (22, "3 h"), (23, "5 h"),
      (24, "12 h"), (25, "24 h")]
  | 14 => some [
      (0, "calm"), (1, "light air"), (2, "light breeze"), (3, "gentle breeze"),
      (4, "moderate breeze"), (5, "fresh breeze"), (6, "strong breeze"), (7, "near gale"),
      (8, "fresh gale"), (9, "strong gale"), (10, "whole gale"), (11, "violent storm"),
      (12, "hurricane")]
  | 17 => some [
      (0, "inactive"), (1, "digital input not inverted"), (2, "digital input inverted"),
      (3, "analog input"), (4, "temperature sensor input")]
  | 20 => some [(1, "SensorConnection"), (2, "ControllerConnection")]
  | 21 => some [
      (0, "Cloudless"), (1, "Sunny"), (2, "Sunshiny"), (3, "Lightly cloudy"),
      (4, "Scattered clouds"), (5, "Cloudy"), (6, "6 okta"), (7, "7 okta"), (8, "Overcast"),
      (9, "Sky obstructed from view")]
  | 22 => some [
      (0, "do not send"), (1, "send always"), (2, "send if value changed during powerdown")]
  | 100 => some [(0, "auto"), (1, "oil"), (2, "gas"), (3, "solid state fuel")]
  | 101 => some [(1, "1 stage"), (2, "2 stage"), (3, "modulating")]
  | 102 => some [
      (0, "Auto"), (1, "Comfort"), (2, "Standby"), (3, "Economy"), (4, "Building Protection")]
  | 103 => some [
      (0, "Auto"), (1, "LegioProtect"), (2, "Normal"), (3, "Reduced"), (4, "Off/FrostProtect")]
  | 104 => some [(0, "None"), (1, "Shift load priority"), (2, "Absolute load priority")]
  | 105 => some [
      (0, "Auto"), (1, "Heat"), (2, "Morning Warmup"), (3, "Cool"), (4, "Night Purge"),
      (5, "Precool"), (6, "Off"), (7, "Test"), (8, "Emergency Heat"), (9, "Fan only"),
      (10, "Free Cool"), (11, "Ice"), (12, "Maximum Heating Mode"),
      (13, "Economic Heat/Cool Mode"), (14, "Dehumidification"), (15, "Calibration Mode"),
      (16, "Emergency Cool Mode"), (17, "Emergency Steam Mode"), (20, "NoDem")]
  | 106 => some [
      (0, "Normal"), (1, "EmergPressure"), (2, "EmergDepressure"), (3, "EmergPurge"),
      (4, "EmergShutdown"), (5, "EmergFire")]
  | 107 => some [(0, "Auto"), (1, "CoolingOnly"), (2, "HeatingOnly")]
  | 108 => some [
      (1, "Heat stage A"), (2, "Heat stage B"), (3, "Cool stage A"), (4, "Cool stage B"),
      (5, "Heat/Cool changeover")]
  | 109 => some [(1, "Fresh air"), (2, "Supply Air"), (3, "Discharge Air"), (4, "Extract Air")]
  | 110 => some [
      (1, "Heat Stage A On/Off"), (2, "Heat Stage A Proportional"),
      (3, "Heat Stage B Proportional")]
  | 111 => some [(0, "not running"), (1, "permanently running"), (2, "running in intervals")]
  | 112 => some [(0, "autonomous"), (1, "master"), (2, "slave")]
  | 113 => some [
      (0, "normal setpoint"), (1, "alternative setpoint"), (2, "building protection setpoint")]
  | 115 => some [(0, "inactive"), (1, "humidification"), (2, "dehumidification")]
  | 120 => some [(1, "Air Damper"), (2, "VAV")]
  | 121 => some [(0, "Backup Value"), (1, "Keep Last State")]
  | 122 => some [(0, "Position unchanged"), (1, "Single close"), (2, "Single open")]
  | 600 => some [
      (0, "off"), (1, "on"), (2, "no change"), (3, "value according to additional parameter"),
      (4, "memory function value"), (5, "updated value"), (6, "value before locking")]
  | 601 => some [
      (0, "off"), (1, "on"), (2, "no change"), (3, "value according to additional parameter"),
      (4, "last value before bus power down")]
  | 602 => some [
      (0, "0 s"), (1, "0.7 s"), (2, "1.0 s"), (3, "1.4 s"), (4, "2.0 s"), (5, "2.8 s"),
      (6, "4.0 s"), (7, "5.7 s"), (8, "8.0 s"), (9, "11.3 s"), (10, "16.0 s"), (11, "22.6 s"),
      (12, "32.0 s"), (13, "45.3 s"), (14, "64.0 s"), (15, "90.5 s")]
  | 603 => some [
      (0, "BlinkingDisabled"), (1, "WithoutAcknowledge"), (2, "BlinkingWithAcknowledge")]
  | 604 => some [(0, "automatic light control"), (1, "manual light control")]
  | 605 => some [(1, "one PB mode"), (2, "two PBs mode")]
  | 606 => some [
      (0, "inactive"), (1, "SwitchOff sent"), (2, "SwitchOn sent"),
      (3, "inverse of InfoOnOff sent")]
  | 607 => some [
      (1, "one PB, toggle"), (2, "one PB, On/DimUp"), (3, "one PB, Off/DimDown"),
      (4, "two PBs mode")]
  | 608 => some [
      (0, "last actual value"), (1, "value according to additional parameter"),
      (2, "last received absolute setvalue")]
  | 609 => some [
      (0, "automatic"), (1, "leading edge"), (2, "trailing edge"), (3, "switch mode only"),
      (4, "automatic once"), (5, "CFL, leading"), (6, "CFL, trailing"), (7, "LED, leading"),
      (8, "LED, trailing")]
  | 610 => some [
      (0, "undefined"), (1, "leading edge"), (2, "trailing edge"),
      (3, "detection not possible or error"), (4, "calibration pending"), (5, "CFL, leading"),
      (6, "CFL, trailing"), (7, "LED, leading"), (8, "LED, trailing")]
  | 611 => some [
      (1, "Start Function Test"), (2, "Start Duration Test"), (3, "Start Partial Duration Test"),
      (4, "Stop Test"), (5, "Reset Function Test Done Flag"), (6, "Reset Duration Test Done")]
  | 612 => some [
      (0, "Restore Factory Default Settings"), (1, "Goto Rest Mode"), (2, "Goto Inhibit Mode"),
      (3, "Re-Light / Reset Inhibit"), (4, "Reset Lamp Time")]
  | 613 => some [
      (1, "Request Converter Status"), (2, "Request Converter Test Result"),
      (3, "Request Battery Info"), (4, "Request Converter FT Info"),
      (5, "Request Converter DT Info"), (6, "Request Converter PDT Info"),
      (7, "Request Converter Info"), (8, "Request Converter Info Fix")]
  | _ => none

/-- The label of a code, `none` for a reserved one. -/
def enumLabel (sub : Nat) (code : UInt8) : Option String :=
  (enumTable sub).bind fun table => (table.find? fun entry => entry.1 = code).map Prod.snd

/-- The bit names of a 21.xxx or 22.xxx bit set by bit number; an empty name is reserved. -/
def flagTable (main sub : Nat) : Option (List String) :=
  match main, sub with
  | 21, 1 => some ["OutOfService", "Fault", "Overridden", "InAlarm", "AlarmUnAck"]
  | 21, 2 => some ["UserStopped", "OwnIA", "VerifyMode"]
  | 21, 100 => some [
      "ForceRequest", "Protection", "Oversupply", "Overrun", "DHWNorm", "DHWLegio", "RoomHComf",
      "RoomHMax"]
  | 21, 101 => some ["ForceRequest"]
  | 21, 102 => some [
      "Fault", "StatusECO", "TempFlowLimit", "TempReturnLimit", "StatusMorningBoost",
      "StatusStartOptim", "StatusStopOptim", "SummerMode"]
  | 21, 103 => some ["Fault", "SDHWLoadActive", "SolarLoadSufficient"]
  | 21, 104 => some ["Oil", "Gas", "SolidState"]
  | 21, 105 => some ["Fault"]
  | 21, 106 => some ["Fault", "FanActive", "Heat", "Cool"]
  | 21, 601 => some [
      "LoadDetectionError", "Undervoltage", "Overcurrent", "Underload", "DefectiveLoad",
      "LampFailure", "Overheat"]
  | 22, 100 => some [
      "Fault", "DHWLoadActive", "LegioProtActive", "DHWPushActive", "OtherEnergySourceActive",
      "SolarEnergyOnly", "SolarEnergySupport", "TempOptimShiftActive"]
  | 22, 101 => some [
      "Fault", "StatusEcoH", "TempFlowLimit", "TempReturnLimit", "StatusMorningBoostH",
      "StatusStartOptim", "StatusStopOptim", "HeatingDisabled", "Heating", "StatusEcoC",
      "StatusPreCool", "CoolingDisabled", "DewPointStatus", "FrostAlarm", "OverheatAlarm"]
  | _, _ => none

/-- The mask of the bits a known bit set reserves, 0 for an unknown one. -/
def flagReservedMask (main sub : Nat) : Nat :=
  match flagTable main sub with
  | none => 0
  | some names =>
      ((List.range (if main = 22 then 16 else 8)).filter fun bit => names.getD bit "" = "").foldl
        (fun mask bit => mask ||| 2 ^ bit) 0

end Bussard.Codec
