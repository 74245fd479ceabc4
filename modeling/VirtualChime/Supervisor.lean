import VirtualChime.OtaScripts
import VirtualChime.Library.Holders
import VirtualChime.Library.Shelves

/-!
# The supervisors of the daemons

The init scripts `S99chime` and `S45webd`, command by command: the scripts that start and stop a
daemon one after the other, the supervisors they leave in the background, and the daemons that these
start.  Daemons write to the log, end or crash whenever they like.
-/

namespace VirtualChime.InitD

/-! ## 1. The settings of the log -/

/-- `get_config_value`, for the file if there is one. -/
def getConfigValue (config : Option Bytes) (key default_value : Bytes) : Bytes :=
  match config with
  | none => default_value
  | some text =>
      let value := Ota.readEnvValue text key
      if value ≠ [] then value else default_value

def isPositiveInteger (value : Bytes) : Bool := !value.isEmpty && value.all isDigit

/-- A setting of `load_log_settings`, as it is written: its default replaces what is no number or
too small. -/
def loadLogSetting (config : Option Bytes) (key : Bytes) (least default_value : ℕ) : Bytes :=
  let value := getConfigValue config key (natDecimal default_value)
  if !isPositiveInteger value || digitsValue value < least then natDecimal default_value
  else value

structure LogSettings where
  max_bytes : Bytes
  keep : Bytes
  check_interval : Bytes
  deriving DecidableEq, Repr

def loadLogSettings (config : Option Bytes) : LogSettings where
  max_bytes := loadLogSetting config (bytes "log_max_bytes") 1024 262144
  keep := loadLogSetting config (bytes "log_rotate_keep") 1 5
  check_interval := loadLogSetting config (bytes "log_rotate_check_interval") 1 30

theorem le_loadLogSetting (config : Option Bytes) (key : Bytes) {least default_value : ℕ}
    (h : least ≤ default_value) :
    least ≤ digitsValue (loadLogSetting config key least default_value) := by
  rw [loadLogSetting]
  split
  · rw [digitsValue_natDecimal]
    exact h
  · next haccepted =>
    simp only [Bool.or_eq_true, decide_eq_true_eq, not_or, not_lt] at haccepted
    exact haccepted.2

theorem one_le_keep (config : Option Bytes) : 1 ≤ digitsValue (loadLogSettings config).keep :=
  le_loadLogSetting config _ (by decide)

/-! ## 2. The processes -/

/-- What the two init scripts do not have in common. -/
structure Service where
  /-- Whether the supervisor rotates the log. -/
  rotates : Bool
  starting : Bytes
  exited : ℕ → Bytes

def S99chime : Service where
  rotates := true
  starting := bytes "Starting chime..."
  exited exit_code := bytes "Chime exited with code " ++ (natDecimal exit_code ++
    bytes ", restarting in 2 seconds...")

def S45webd : Service where
  rotates := false
  starting := bytes "Starting chime-webd..."
  exited exit_code := bytes "chime-webd exited with code " ++ (natDecimal exit_code ++
    bytes ", restarting in 2s")

/-- Where a supervisor is in `rotate_logs_if_needed`. -/
inductive RotationPoint where
  | check
  /-- The loop at this `INDEX`. -/
  | shift (index : Bytes) (log_size : ℕ)
  | copy (log_size : ℕ)
  | empty (log_size : ℕ)
  | note (log_size : ℕ)
  deriving DecidableEq, Repr

/-- What comes after a command of `rotate_logs_if_needed`. -/
inductive RotationResult where
  | goesOn (next : RotationPoint)
  | returns
  /-- The shell ends with an error. -/
  | fatal
  deriving DecidableEq, Repr

/-- Where a supervisor is in `supervisor_loop`; it rotates before it starts the daemon and while it
watches one. -/
inductive SupervisorPoint where
  | rotating (point : RotationPoint) (watched : Option ℕ)
  | starting
  | spawning
  | watching (child : ℕ)
  | waiting (child : ℕ)
  | restarting (exit_code : ℕ)
  | ended
  deriving DecidableEq, Repr

/-- The daemon that a supervisor has started and not waited for. -/
def SupervisorPoint.child : SupervisorPoint → Option ℕ
  | .rotating _ watched => watched
  | .watching child => some child
  | .waiting child => some child
  | _ => none

/-- Where a supervisor goes on after a command of a rotation, or after the last one. -/
def SupervisorPoint.afterRotation (watched : Option ℕ) : RotationResult → SupervisorPoint
  | .goesOn next => .rotating next watched
  | .returns =>
      match watched with
      | none => .starting
      | some child => .watching child
  | .fatal => .ended

/-- The start of `supervisor_loop`. -/
def Service.loopPoint (service : Service) : SupervisorPoint :=
  if service.rotates then .rotating .check none else .starting

/-- A supervisor that rotates the log looks after its daemon now and then, one that does not waits
for it. -/
def Service.spawned (service : Service) (child : ℕ) : SupervisorPoint :=
  if service.rotates then .watching child else .waiting child

theorem Service.loopPoint_ne_ended (service : Service) : service.loopPoint ≠ .ended := by
  rw [Service.loopPoint]
  split <;> exact fun h => by cases h

theorem Service.spawned_ne_ended (service : Service) (child : ℕ) :
    service.spawned child ≠ .ended := by
  rw [Service.spawned]
  split <;> exact fun h => by cases h

theorem Service.child_spawned (service : Service) (child : ℕ) :
    (service.spawned child).child = some child := by
  rw [Service.spawned]
  split <;> rfl

/-- `$(( ))` can read the numbers that a supervisor has before it; one that does not rotate the log
gets nowhere near a rotation. -/
def SupervisorPoint.Readable (service : Service) : SupervisorPoint → Prop
  | .rotating (.shift index _) _ => service.rotates = true ∧ (arithmeticValue index).isSome = true
  | .rotating _ _ => service.rotates = true
  | .watching _ => service.rotates = true
  | _ => True

theorem Service.readable_loopPoint (service : Service) : service.loopPoint.Readable service := by
  rw [Service.loopPoint]
  split
  · next hrotates => exact hrotates
  · trivial

theorem Service.readable_spawned (service : Service) (child : ℕ) :
    (service.spawned child).Readable service := by
  rw [Service.spawned]
  split
  · next hrotates => exact hrotates
  · trivial

structure Supervisor where
  settings : LogSettings
  point : SupervisorPoint
  deriving DecidableEq, Repr

structure Daemon where
  running : Bool := true
  /-- It has been sent a `SIGTERM`. -/
  told : Bool := false
  exit_code : ℕ := 0
  deriving DecidableEq, Repr

/-- Where the script is that runs in the foreground. -/
inductive ScriptPoint where
  | idle
  | start
  | writePid (pid : ℕ)
  | stop (restart : Bool)
  | killall (restart : Bool)
  deriving DecidableEq, Repr

/-- Process numbers count supervisors and daemons; they are not used again. -/
structure Machine where
  log : Option Bytes := none
  /-- `LOGFILE.name` -/
  rotated : Bytes → Option Bytes := fun _ => none
  pidfile : Option ℕ := none
  supervisors : List Supervisor := []
  daemons : List Daemon := []
  script : ScriptPoint := .idle
  /-- All that was ever appended to the log; no command reads it. -/
  written : Bytes := []

/-- What the commands of one step meet. -/
structure StepIo where
  /-- Whether the file operation is done. -/
  done : Bool := true
  /-- How many bytes `cp` copies. -/
  copied : ℕ := 0
  /-- What `date` prints. -/
  date : Bytes := []
  /-- Whether `kill -0` still finds a daemon that has ended, as it has not been waited for. -/
  unreaped : Bool := false
  deriving DecidableEq, Repr

namespace Machine

def append (s : Machine) (data : Bytes) : Machine :=
  { s with log := some (s.log.getD [] ++ data), written := s.written ++ data }

/-- `log_line`, where the log can be written to. -/
def logLine (s : Machine) (io : StepIo) (text : Bytes) : Machine :=
  if io.done then s.append (91 :: (io.date ++ (bytes "] " ++ (text ++ [newline])))) else s

def setPoint (s : Machine) (p : ℕ) (supervisor : Supervisor) (point : SupervisorPoint) : Machine :=
  { s with supervisors := s.supervisors.set p { supervisor with point } }

/-- `mv`, if there is anything to move. -/
def move (s : Machine) (source target : Bytes) : Machine :=
  { s with rotated := Shelves.move s.rotated source target }

/-- `cp "$LOGFILE" "$LOGFILE.1"` -/
def copyLog (s : Machine) (copied : ℕ) : Machine :=
  match s.log with
  | none => s
  | some text =>
      { s with rotated := Shelves.put s.rotated (bytes "1") (text.take copied) }

/-- A command of `rotate_logs_if_needed`.  An error in `$(( ))`, and one in the redirection of `:`,
ends the shell. -/
def stepRotation (s : Machine) (settings : LogSettings) (io : StepIo) :
    RotationPoint → Machine × RotationResult
  | .check =>
      match s.log with
      | none => (s, .returns)
      | some text =>
          if !io.done || text.length < digitsValue settings.max_bytes then (s, .returns)
          else (s, .goesOn (.shift settings.keep text.length))
  | .shift index log_size =>
      if digitsValue index > 1 then
        match arithmeticValue index with
        | none => (s, .fatal)
        | some value =>
            let prev := natDecimal (value - 1)
            (if io.done then s.move prev index else s, .goesOn (.shift prev log_size))
      else (s, .goesOn (.copy log_size))
  | .copy log_size => (if io.done then s.copyLog io.copied else s, .goesOn (.empty log_size))
  | .empty log_size =>
      if io.done then ({ s with log := some [] }, .goesOn (.note log_size)) else (s, .fatal)
  | .note log_size =>
      (s.logLine io (bytes "Rotated log file (size=" ++ (natDecimal log_size ++
        (bytes "B max_bytes=" ++ (settings.max_bytes ++
          (bytes " keep=" ++ (settings.keep ++ bytes ")")))))), .returns)

/-- A command of `supervisor_loop`. -/
def stepSupervisor (service : Service) (s : Machine) (p : ℕ) (supervisor : Supervisor) (io : StepIo) :
    Option Machine :=
  match supervisor.point with
  | .rotating point watched =>
      let (t, next) := s.stepRotation supervisor.settings io point
      some (t.setPoint p supervisor (.afterRotation watched next))
  | .starting =>
      some ((s.logLine io service.starting).setPoint p supervisor .spawning)
  | .spawning =>
      some ({ s with daemons := s.daemons ++ [({} : Daemon)] }.setPoint p supervisor
        (service.spawned s.daemons.length))
  | .watching child =>
      if s.daemons[child]?.any (fun daemon => daemon.running || io.unreaped) then
        -- `sleep "$LOG_ROTATE_CHECK_INTERVAL"`
        some (s.setPoint p supervisor (.rotating .check (some child)))
      else some (s.setPoint p supervisor (.waiting child))
  | .waiting child =>
      match s.daemons[child]? with
      | none => none
      | some daemon =>
          if daemon.running then none
          else some (s.setPoint p supervisor (.restarting daemon.exit_code))
  | .restarting exit_code =>
      some ((s.logLine io (service.exited exit_code)).setPoint p supervisor service.loopPoint)
  | .ended => none

def alive (s : Machine) (p : ℕ) : Bool :=
  s.supervisors[p]?.any fun supervisor => supervisor.point ≠ .ended

/-- `kill`, of a process that may be gone. -/
def kill (s : Machine) (p : ℕ) : Machine :=
  match s.supervisors[p]? with
  | none => s
  | some supervisor => s.setPoint p supervisor .ended

/-- A command of the script in the foreground. -/
def stepScript (service : Service) (s : Machine) (executable : Bool) (config : Option Bytes) :
    Option Machine :=
  match s.script with
  | .idle => none
  | .start =>
      if s.pidfile.any s.alive then some { s with script := .idle }
      else if !executable then some { s with script := .idle }
      else
        some { s with
          supervisors := s.supervisors ++ [⟨loadLogSettings config, service.loopPoint⟩]
          script := .writePid s.supervisors.length }
  | .writePid pid => some { s with pidfile := some pid, script := .idle }
  | .stop restart =>
      some { (match s.pidfile with
        | none => s
        | some pid => { s.kill pid with pidfile := none }) with script := .killall restart }
  | .killall restart =>
      some { s with
        daemons := s.daemons.map fun daemon => { daemon with told := daemon.running || daemon.told }
        script := if restart then .start else .idle }

inductive Command where
  | start
  | stop
  | restart
  deriving DecidableEq, Repr

inductive Action where
  | command (command : Command)
  | script (executable : Bool) (config : Option Bytes)
  | supervisor (p : ℕ) (io : StepIo)
  /-- A daemon writes to the log. -/
  | write (j : ℕ) (data : Bytes)
  /-- A daemon ends, whether it was told to or not. -/
  | exit (j : ℕ) (exit_code : ℕ)
  deriving DecidableEq, Repr

def step (service : Service) (s : Machine) : Action → Option Machine
  | .command command =>
      if s.script = .idle then
        some { s with
          script := match command with
            | .start => .start
            | .stop => .stop false
            | .restart => .stop true }
      else none
  | .script executable config => s.stepScript service executable config
  | .supervisor p io =>
    s.supervisors[p]?.bind fun supervisor => s.stepSupervisor service p supervisor io
  | .write j data => if s.daemons[j]?.any (·.running) then some (s.append data) else none
  | .exit j exit_code =>
      s.daemons[j]?.bind fun daemon =>
        if daemon.running then
          some { s with daemons := s.daemons.set j { daemon with running := false, exit_code } }
        else none

/-- The log is emptied next. -/
def empties (s : Machine) (p : ℕ) : Bool :=
  s.supervisors[p]?.any fun supervisor =>
    match supervisor.point with
    | .rotating (.empty _) _ => true
    | _ => false

/-- No supervisor ends by itself: one that rotates the log starts with a number of files that
`$(( ))` can read, and the log can be emptied. -/
def lasting (service : Service) (s : Machine) : Action → Bool
  | .script _ config =>
      s.script ≠ .start || !service.rotates ||
        (arithmeticValue (loadLogSettings config).keep).isSome
  | .supervisor p io => io.done || !s.empties p
  | _ => true

abbrev Reachable (service : Service) (s : Machine) : Prop :=
  Runs.Reaches (step service) (fun s a => s.lasting service a = true) {} s

end Machine

end VirtualChime.InitD
