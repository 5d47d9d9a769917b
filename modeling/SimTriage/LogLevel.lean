import SimTriage.Failure

/-!
The level of log output, by name. Names of settings that are no levels are refused with what they
stand for; any other name means the usual level.
-/

set_option autoImplicit false

namespace SimTriage.LogLevel

def settingName : Text := "SOROBAN_TRIAGE_LOG_LEVEL"

def usual : Nat := 20

def levels : List (Text × Nat) :=
  [("NOTSET", 0), ("DEBUG", 10), ("INFO", 20), ("WARN", 30), ("WARNING", 30), ("ERROR", 40),
   ("CRITICAL", 50), ("FATAL", 50)]

def basicFormat : Text := "%(levelname)s:%(name)s:%(message)s"

/-- The styles of formats, with their formatters and usual formats. -/
def styles : List (Text × Text × Text) :=
  [("%", "logging.PercentStyle", basicFormat),
   ("\x7b", "logging.StrFormatStyle", "\x7blevelname\x7d:\x7bname\x7d:\x7bmessage\x7d"),
   ("$", "logging.StringTemplateStyle",
     "$\x7blevelname\x7d:$\x7bname\x7d:$\x7bmessage\x7d")]

/-- The level that a setting means, whatever its letter case. -/
def ofSetting (setting : Option Text) : Except Failure Nat :=
  let name := Text.upper (setting.getD "INFO")
  if name = "BASIC_FORMAT" then .error (.levelIsText basicFormat)
  else if name = "_STYLES" then .error (.levelIsTable styles)
  else .ok ((levels.lookup name).getD usual)

end SimTriage.LogLevel
