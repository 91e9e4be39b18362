/-!
# How a process ends
-/

namespace IncludeGate

/-- The end of a process. -/
inductive ExitStatus where
  /-- The process ended by itself with a code. -/
  | exited (code : Nat)
  /-- A signal ended the process, and the system may have kept a dump of its memory. -/
  | signaled (signal : Nat) (coreDumped : Bool := false)
  deriving DecidableEq, Repr

namespace ExitStatus

/-- The names of the signals, from number 1 on. -/
def signalNames : List String :=
  ["SIGHUP", "SIGINT", "SIGQUIT", "SIGILL", "SIGTRAP", "SIGABRT", "SIGBUS", "SIGFPE",
    "SIGKILL", "SIGUSR1", "SIGSEGV", "SIGUSR2", "SIGPIPE", "SIGALRM", "SIGTERM",
    "SIGSTKFLT", "SIGCHLD", "SIGCONT", "SIGSTOP", "SIGTSTP", "SIGTTIN", "SIGTTOU",
    "SIGURG", "SIGXCPU", "SIGXFSZ", "SIGVTALRM", "SIGPROF", "SIGWINCH", "SIGIO",
    "SIGPWR", "SIGSYS"]

/-- Whether the process ended well. -/
def isSuccess : ExitStatus → Bool
  | exited code => code == 0
  | signaled .. => false

/-- The name of a signal, if it has one. -/
def signalName? : Nat → Option String
  | 0 => none
  | number + 1 => signalNames[number]?

/-- The text shown for the end of a process. -/
def message : ExitStatus → String
  | exited code => s!"exit status: {code}"
  | signaled signal coreDumped =>
      let name := match signalName? signal with
        | some name => s!" ({name})"
        | none => ""
      let dump := if coreDumped then " (core dumped)" else ""
      s!"signal: {signal}{name}{dump}"

end ExitStatus

/-- What a finished process leaves behind. -/
structure ProcessResult where
  status : ExitStatus
  /-- Everything written to the output stream. -/
  output : List UInt8
  /-- Everything written to the error stream. -/
  errors : List UInt8
  deriving DecidableEq, Repr

end IncludeGate
