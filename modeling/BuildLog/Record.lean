import BuildLog.Text.Basic

/-! The records of a compilation database. -/
namespace BuildLog

/-- One command of a build, the directory it runs in, and the file it compiles. -/
structure Record where
  directory : Text
  file : Text
  command : Text
deriving DecidableEq, Repr

end BuildLog
