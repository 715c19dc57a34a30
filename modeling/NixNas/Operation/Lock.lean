import NixNas.Lib.Quote
import NixNas.Lib.Transition
import NixNas.Names
import Mathlib.Logic.Function.Basic

/-!
# The appliance mutation lock (`services/nas_operation_lock.py`)

One flock and one file with the metadata of its holder.  Every use of the module is a call with its
own open file; the calls of all processes interleave, one system call at a time.  The threads of a
process share its environment.
-/

open Transition

namespace NixNas.Operation

/-- `KNOWN_CLASSES`. -/
inductive OperationClass where
  | appliance | firstStart | identity | network | runtime | secrets | state | storage | update
  deriving DecidableEq, Repr

def OperationClass.name : OperationClass → String
  | .appliance => "appliance"
  | .firstStart => "first-start"
  | .identity => "identity"
  | .network => "network"
  | .runtime => "runtime"
  | .secrets => "secrets"
  | .state => "state"
  | .storage => "storage"
  | .update => "update"

def knownClasses : List OperationClass :=
  [.appliance, .firstStart, .identity, .network, .runtime, .secrets, .state, .storage, .update]

/-- `_normalize_classes`: sorted and without repetition. -/
def normalizeClasses (classes : List OperationClass) : List OperationClass :=
  knownClasses.filter (· ∈ classes)

def classesCover (held requested : List OperationClass) : Bool :=
  decide (OperationClass.appliance ∈ held) || requested.all (· ∈ held)

/-- `TOKEN_RE`. -/
def isToken (token : Text) : Bool :=
  token.length = 32 && token.all fun c ↦ c.isDigit || ('a' ≤ c && c ≤ 'f')

abbrev Pid := Nat

/-- A call of the module with its open file description. -/
abbrev CallId := Nat

/-- What the holder writes into the lock file. -/
structure Metadata where
  token : Text
  action : Text
  classes : List OperationClass
  pid : Pid
  deriving DecidableEq, Repr

/-- The JSON object of `_metadata`, without the line end. -/
def metadataText (m : Metadata) : Text :=
  "\x7b\"action\":".toList ++ Quote.jsonDumps m.action ++ ",\"classes\":[".toList ++
    ",".toList.intercalate (m.classes.map fun c ↦ Quote.jsonDumps c.name.toList) ++
    "],\"pid\":".toList ++ (Nat.repr m.pid).toList ++ ",\"token\":".toList ++
    Quote.jsonDumps m.token ++ "\x7d".toList

/-- `_read_metadata` reads 4096 characters; a longer object is cut and unreadable. -/
def readMetadata (content : Option Metadata) : Option Metadata :=
  content.filter fun m ↦ (metadataText m).length ≤ 4096

/-- The checks of `validate_coordination_token` on the metadata it read. -/
def acceptsToken (content : Option Metadata) (token : Text) (requested : List OperationClass) : Bool :=
  (readMetadata content).any fun m ↦ m.token = token && classesCover m.classes requested

inductive Request where
  /-- `acquire_operation`, or `main` if it launches a command. -/
  | operation (action : Text) (classes : List OperationClass) (blocking launches : Bool)
  /-- `validate_coordination_token`, also from `main --validate-current`. -/
  | validate (token : Text) (classes : List OperationClass)
  | reserve (classes : List OperationClass)
  /-- `operation_state`. -/
  | state
  deriving DecidableEq, Repr

def Request.classes : Request → List OperationClass
  | .operation _ classes _ _ => normalizeClasses classes
  | .validate _ classes => normalizeClasses classes
  | .reserve classes => normalizeClasses classes
  | .state => []

def Request.refused : Request → Bool
  | .state => false
  | request => request.classes.isEmpty

inductive Phase where
  | opened
  /-- `operation_state` has read the metadata and not tried the flock. -/
  | looked
  /-- The flock was free, which a validator or a status reader only wanted to know. -/
  | probing
  /-- A validator found the flock taken and has not read the metadata. -/
  | busy
  /-- An operation has the flock. -/
  | locked
  | prepared (token : Text)
  | truncated (token : Text)
  | written (token : Text)
  /-- The body runs, or `main` waits for its command. -/
  | body (token : Text)
  | cleared (token : Text)
  /-- The body runs under the inherited token. -/
  | admitted (token : Text)
  | released
  deriving DecidableEq, Repr

def Phase.holds : Phase → Bool
  | .probing | .locked | .prepared _ | .truncated _ | .written _ | .body _ | .cleared _ => true
  | _ => false

def Phase.generated? : Phase → Option Text
  | .prepared token | .truncated token | .written token | .body token | .cleared token => some token
  | _ => none

def Phase.published? : Phase → Option Text
  | .written token | .body token => some token
  | _ => none

structure Call where
  pid : Pid
  request : Request
  /-- The token to validate: the argument, or the one an operation finds in its environment. -/
  presented : Option Text
  phase : Phase
  /-- The command that `main` launched. -/
  child : Option Pid
  deriving DecidableEq, Repr

def Call.isOperation (call : Call) : Bool :=
  match call.request with
  | .operation .. => true
  | _ => false

def Call.acquires (call : Call) : Bool := call.isOperation && call.presented.isNone

def Call.blocking (call : Call) : Bool :=
  match call.request with
  | .operation _ _ blocking _ => blocking
  | _ => false

def Call.launches (call : Call) : Bool :=
  match call.request with
  | .operation _ _ _ launches => launches
  | _ => false

def Call.action (call : Call) : Text :=
  match call.request with
  | .operation action _ _ _ => action
  | _ => []

structure Process where
  alive : Bool
  /-- The token in the environment the process was launched with. -/
  inherited : Option Text
  /-- The token of the operation whose body it runs. -/
  own : Option Text
  /-- Whether `main` launched it. -/
  command : Bool
  deriving DecidableEq, Repr

/-- `os.environ.get("NAS_OPERATION_COORDINATION_TOKEN")`. -/
def Process.token (process : Process) : Option Text := process.own <|> process.inherited

structure State where
  procs : Pid → Option Process
  calls : CallId → Option Call
  /-- The call whose open file description has the flock. -/
  lock : Option CallId
  content : Option Metadata
  /-- The process that generated a token, and the classes of the operation. -/
  generated : Text → Option (Pid × List OperationClass)

def initial : State := ⟨fun _ ↦ none, fun _ ↦ none, none, none, fun _ ↦ none⟩

def State.setProcess (s : State) (p : Pid) (process : Process) : State :=
  { s with procs := Function.update s.procs p (some process) }

def State.setCall (s : State) (c : CallId) (call : Call) : State :=
  { s with calls := Function.update s.calls c (some call) }

def State.dropCall (s : State) (c : CallId) : State :=
  { s with calls := Function.update s.calls c none }

def State.setPhase (s : State) (c : CallId) (call : Call) (phase : Phase) : State :=
  s.setCall c { call with phase }

def State.setOwn (s : State) (p : Pid) (own : Option Text) : State :=
  { s with procs := Function.update s.procs p ((s.procs p).map fun process ↦ { process with own }) }

/-- A killed process: its files are closed, which releases its flock; the content stays. -/
def State.kill (s : State) (p : Pid) : State :=
  { s with
    procs := Function.update s.procs p
      ((s.procs p).map fun process ↦ { process with alive := false })
    calls := fun c ↦ (s.calls c).filter fun call ↦ call.pid ≠ p
    lock := s.lock.filter fun c ↦ (s.calls c).any fun call ↦ call.pid ≠ p }

def presentedToken (process : Process) : Request → Option Text
  | .operation .. => process.token
  | .validate token _ => some token
  | _ => none

def State.dead (s : State) (p : Pid) : Prop := ∃ process, s.procs p = some process ∧ ¬ process.alive

/-- `main` waits for its command. -/
def State.waited (s : State) (call : Call) : Prop := ∀ q, call.child = some q → s.dead q

inductive Action where
  | start (p : Pid)
  | spawn (p q : Pid)
  | call (c : CallId) (p : Pid) (request : Request)
  | look (c : CallId)
  | tryLock (c : CallId)
  | read (c : CallId)
  | generate (c : CallId) (token : Text)
  | truncate (c : CallId)
  | write (c : CallId)
  | enter (c : CallId)
  | launch (c : CallId) (q : Pid)
  | clear (c : CallId)
  /-- `truncate` raises an `OSError` that the code passes over. -/
  | clearFails (c : CallId)
  | unlock (c : CallId)
  | close (c : CallId)
  | leave (c : CallId)
  /-- A system call of `acquire_operation` raises before the body. -/
  | fail (c : CallId)
  | kill (p : Pid)

/-- One system call of one call, or one event of one process. -/
inductive Step : State → Action → State → Prop where
  | start {s : State} (p : Pid) (hfresh : s.procs p = none) :
      Step s (.start p) (s.setProcess p ⟨true, none, none, false⟩)
  | spawn {s : State} (p q : Pid) (process : Process) (hprocess : s.procs p = some process)
      (halive : process.alive = true) (hfresh : s.procs q = none) :
      Step s (.spawn p q) (s.setProcess q ⟨true, process.token, none, false⟩)
  | call {s : State} (c : CallId) (p : Pid) (request : Request) (process : Process)
      (hprocess : s.procs p = some process) (halive : process.alive = true)
      (hfresh : s.calls c = none) (hclasses : request.refused = false)
      (htoken : (presentedToken process request).all isToken = true) :
      Step s (.call c p request)
        (s.setCall c ⟨p, request, presentedToken process request, .opened, none⟩)
  | look {s : State} (c : CallId) (call : Call) (hcall : s.calls c = some call)
      (hphase : call.phase = .opened) (hstate : call.request = .state) :
      Step s (.look c) (s.setPhase c call .looked)
  -- the flock of an operation
  | lock {s : State} (c : CallId) (call : Call) (hcall : s.calls c = some call)
      (hphase : call.phase = .opened) (hacquires : call.acquires = true) (hfree : s.lock = none) :
      Step s (.tryLock c) { s.setPhase c call .locked with lock := some c }
  -- a test that found the flock free: it has it for an instant
  | probe {s : State} (c : CallId) (call : Call) (hcall : s.calls c = some call)
      (hphase : call.phase = if call.request = .state then .looked else .opened)
      (hacquires : call.acquires = false) (hfree : s.lock = none) :
      Step s (.tryLock c) { s.setPhase c call .probing with lock := some c }
  | busy {s : State} (c : CallId) (call : Call) (hcall : s.calls c = some call)
      (hphase : call.phase = .opened) (hacquires : call.acquires = false)
      (hpresented : call.presented.isSome = true) (hheld : s.lock.isSome = true) :
      Step s (.tryLock c) (s.setPhase c call .busy)
  -- a non-blocking operation raises, and so does `reserve_operation`; a status reader returns
  | refused {s : State} (c : CallId) (call : Call) (hcall : s.calls c = some call)
      (hphase : call.phase = if call.request = .state then .looked else .opened)
      (hblocking : call.blocking = false) (hpresented : call.presented = none)
      (hheld : s.lock.isSome = true) :
      Step s (.tryLock c) (s.dropCall c)
  -- the validation succeeds: an operation runs its body under the inherited token
  | inherit {s : State} (c : CallId) (call : Call) (token : Text) (hcall : s.calls c = some call)
      (hphase : call.phase = .busy) (hpresented : call.presented = some token)
      (hoperation : call.isOperation = true)
      (haccepts : acceptsToken s.content token call.request.classes = true) :
      Step s (.read c) (s.setPhase c call (.admitted token))
  | validated {s : State} (c : CallId) (call : Call) (token : Text) (hcall : s.calls c = some call)
      (hphase : call.phase = .busy) (hpresented : call.presented = some token)
      (hoperation : call.isOperation = false)
      (haccepts : acceptsToken s.content token call.request.classes = true) :
      Step s (.read c) (s.dropCall c)
  | rejected {s : State} (c : CallId) (call : Call) (token : Text) (hcall : s.calls c = some call)
      (hphase : call.phase = .busy) (hpresented : call.presented = some token)
      (haccepts : acceptsToken s.content token call.request.classes = false) :
      Step s (.read c) (s.dropCall c)
  | generate {s : State} (c : CallId) (call : Call) (token : Text) (hcall : s.calls c = some call)
      (hphase : call.phase = .locked) (htoken : isToken token = true)
      (hfresh : s.generated token = none) :
      Step s (.generate c token)
        { s.setPhase c call (.prepared token) with
          generated := Function.update s.generated token (some (call.pid, call.request.classes)) }
  | truncate {s : State} (c : CallId) (call : Call) (token : Text) (hcall : s.calls c = some call)
      (hphase : call.phase = .prepared token) :
      Step s (.truncate c) { s.setPhase c call (.truncated token) with content := none }
  | write {s : State} (c : CallId) (call : Call) (token : Text) (hcall : s.calls c = some call)
      (hphase : call.phase = .truncated token) :
      Step s (.write c)
        { s.setPhase c call (.written token) with
          content := some ⟨token, call.action, call.request.classes, call.pid⟩ }
  | enter {s : State} (c : CallId) (call : Call) (token : Text) (hcall : s.calls c = some call)
      (hphase : call.phase = .written token) :
      Step s (.enter c) ((s.setPhase c call (.body token)).setOwn call.pid (some token))
  | launch {s : State} (c : CallId) (call : Call) (token : Text) (q : Pid)
      (hcall : s.calls c = some call) (hphase : call.phase = .body token ∨ call.phase = .admitted token)
      (hlaunches : call.launches = true) (hchild : call.child = none) (hfresh : s.procs q = none) :
      Step s (.launch c q)
        ((s.setCall c { call with child := some q }).setProcess q ⟨true, some token, none, true⟩)
  -- the end of a body that has the flock
  | clear {s : State} (c : CallId) (call : Call) (token : Text) (hcall : s.calls c = some call)
      (hphase : call.phase = .body token) (hwaited : s.waited call) :
      Step s (.clear c)
        { (s.setPhase c call (.cleared token)).setOwn call.pid none with content := none }
  | clearFails {s : State} (c : CallId) (call : Call) (token : Text) (hcall : s.calls c = some call)
      (hphase : call.phase = .body token) (hwaited : s.waited call) :
      Step s (.clearFails c) ((s.setPhase c call (.cleared token)).setOwn call.pid none)
  | unlock {s : State} (c : CallId) (call : Call) (hcall : s.calls c = some call)
      (hphase : call.phase = .probing ∨ ∃ token, call.phase = .cleared token) :
      Step s (.unlock c) { s.setPhase c call .released with lock := none }
  | close {s : State} (c : CallId) (call : Call) (hcall : s.calls c = some call)
      (hphase : call.phase = .released) : Step s (.close c) (s.dropCall c)
  -- the end of a body under an inherited token
  | leave {s : State} (c : CallId) (call : Call) (token : Text) (hcall : s.calls c = some call)
      (hphase : call.phase = .admitted token) (hwaited : s.waited call) :
      Step s (.leave c) (s.dropCall c)
  | fail {s : State} (c : CallId) (call : Call) (hcall : s.calls c = some call)
      (hphase : call.phase = .locked ∨ (∃ token, call.phase = .prepared token) ∨
        (∃ token, call.phase = .truncated token) ∨ ∃ token, call.phase = .written token) :
      Step s (.fail c) { s.dropCall c with lock := none }
  | kill {s : State} (p : Pid) (process : Process) (hprocess : s.procs p = some process)
      (halive : process.alive = true) : Step s (.kill p) (s.kill p)

/-- At most one call holds the flock, and a generated token names its process and classes. -/
structure Coherent (s : State) : Prop where
  holder : ∀ c call, s.calls c = some call → call.phase.holds = true → s.lock = some c
  origin : ∀ c call token, s.calls c = some call → call.phase.generated? = some token →
    s.generated token = some (call.pid, call.request.classes)

theorem coherent_initial : Coherent initial := ⟨nofun, nofun⟩

variable {s s' : State} {c c' : CallId} {call call' : Call} {phase : Phase}

theorem calls_setCall : (s.setCall c call).calls c' = some call' ↔
    c' = c ∧ call' = call ∨ c' ≠ c ∧ s.calls c' = some call' := by
  show Function.update s.calls c (some call) c' = some call' ↔ _
  by_cases h : c' = c
  · subst h
    simp [eq_comm]
  · simp [h]

theorem calls_dropCall : (s.dropCall c).calls c' = some call' ↔
    c' ≠ c ∧ s.calls c' = some call' := by
  show Function.update s.calls c none c' = some call' ↔ _
  by_cases h : c' = c
  · subst h
    simp
  · simp [h]

theorem calls_kill {p : Pid} : (s.kill p).calls c = some call ↔
    s.calls c = some call ∧ call.pid ≠ p := by
  show (s.calls c).filter _ = some call ↔ _
  rw [Option.filter_eq_some_iff, decide_eq_true_eq]

theorem Coherent.setCall (h : Coherent s) (hholds : call.phase.holds = false)
    (hgenerated : call.phase.generated? = none) : Coherent (s.setCall c call) := by
  refine ⟨?_, ?_⟩
  · intro c₀ call₀ hcall₀ hholds₀
    obtain ⟨rfl, rfl⟩ | ⟨-, hold⟩ := calls_setCall.mp hcall₀
    · rw [hholds] at hholds₀
      cases hholds₀
    · exact h.holder c₀ call₀ hold hholds₀
  · intro c₀ call₀ token hcall₀ htoken
    obtain ⟨rfl, rfl⟩ | ⟨-, hold⟩ := calls_setCall.mp hcall₀
    · rw [hgenerated] at htoken
      cases htoken
    · exact h.origin c₀ call₀ token hold htoken

theorem Coherent.dropCall (h : Coherent s) : Coherent (s.dropCall c) :=
  ⟨fun c₀ call₀ hcall₀ => h.holder c₀ call₀ (calls_dropCall.mp hcall₀).2,
    fun c₀ call₀ token hcall₀ => h.origin c₀ call₀ token (calls_dropCall.mp hcall₀).2⟩

theorem Coherent.take (h : Coherent s) (hgenerated : call.phase.generated? = none)
    (hfree : s.lock = none) : Coherent { s.setCall c call with lock := some c } := by
  refine ⟨?_, ?_⟩
  · intro c₀ call₀ hcall₀ hholds₀
    obtain ⟨rfl, rfl⟩ | ⟨-, hold⟩ := calls_setCall.mp hcall₀
    · rfl
    · have hlock := h.holder c₀ call₀ hold hholds₀
      rw [hfree] at hlock
      cases hlock
  · intro c₀ call₀ token hcall₀ htoken
    obtain ⟨rfl, rfl⟩ | ⟨-, hold⟩ := calls_setCall.mp hcall₀
    · rw [hgenerated] at htoken
      cases htoken
    · exact h.origin c₀ call₀ token hold htoken

theorem Coherent.replace (h : Coherent s) (hcall : s.calls c = some call)
    (hpid : call'.pid = call.pid) (hrequest : call'.request = call.request)
    (hholds : call'.phase.holds = true → call.phase.holds = true)
    (hgenerated : ∀ token, call'.phase.generated? = some token →
      call.phase.generated? = some token) : Coherent (s.setCall c call') := by
  refine ⟨?_, ?_⟩
  · intro c₀ call₀ hcall₀ hholds₀
    obtain ⟨rfl, rfl⟩ | ⟨-, hother⟩ := calls_setCall.mp hcall₀
    · exact h.holder _ call hcall (hholds hholds₀)
    · exact h.holder c₀ call₀ hother hholds₀
  · intro c₀ call₀ token hcall₀ htoken
    obtain ⟨rfl, rfl⟩ | ⟨-, hother⟩ := calls_setCall.mp hcall₀
    · rw [hpid, hrequest]
      exact h.origin _ call token hcall (hgenerated token htoken)
    · exact h.origin c₀ call₀ token hother htoken

theorem Coherent.advance (h : Coherent s) (hcall : s.calls c = some call)
    (hholds : call.phase.holds = true) (hgenerated : call.phase.generated? = phase.generated?) :
    Coherent (s.setPhase c call phase) :=
  h.replace hcall rfl rfl (fun _ => hholds) fun _ htoken => hgenerated.trans htoken

theorem Coherent.release (h : Coherent s) (hcall : s.calls c = some call)
    (hholds : call.phase.holds = true) (hcalls : ∀ c' call', s'.calls c' = some call' →
      call'.phase.holds = true → s.calls c' = some call' ∧ c' ≠ c)
    (hgenerated : ∀ c' call' token, s'.calls c' = some call' →
      call'.phase.generated? = some token → s.calls c' = some call')
    (hsame : s'.generated = s.generated) : Coherent s' := by
  refine ⟨?_, ?_⟩
  · intro c₀ call₀ hcall₀ hholds₀
    obtain ⟨hold, hne⟩ := hcalls c₀ call₀ hcall₀ hholds₀
    have hlock := h.holder c₀ call₀ hold hholds₀
    rw [h.holder c call hcall hholds] at hlock
    cases hlock
    exact (hne rfl).elim
  · intro c₀ call₀ token hcall₀ htoken
    rw [hsame]
    exact h.origin c₀ call₀ token (hgenerated c₀ call₀ token hcall₀ htoken) htoken

theorem Coherent.congr (h : Coherent s) (hcalls : s'.calls = s.calls) (hlock : s'.lock = s.lock)
    (hgenerated : s'.generated = s.generated) : Coherent s' := by
  refine ⟨?_, ?_⟩
  · rw [hcalls, hlock]
    exact h.holder
  · rw [hcalls, hgenerated]
    exact h.origin

theorem Coherent.generate (h : Coherent s) {token : Text} (hcall : s.calls c = some call)
    (hphase : call.phase = .locked) (hfresh : s.generated token = none) :
    Coherent { s.setPhase c call (.prepared token) with
      generated := Function.update s.generated token (some (call.pid, call.request.classes)) } := by
  refine ⟨?_, ?_⟩
  · intro c₀ call₀ hcall₀ hholds₀
    obtain ⟨rfl, rfl⟩ | ⟨-, hother⟩ := calls_setCall.mp hcall₀
    · exact h.holder _ _ hcall (by rw [hphase]; rfl)
    · exact h.holder c₀ call₀ hother hholds₀
  · intro c₀ call₀ token₀ hcall₀ htoken₀
    obtain ⟨rfl, rfl⟩ | ⟨-, hother⟩ := calls_setCall.mp hcall₀
    · cases htoken₀
      exact Function.update_self ..
    · -- the tokens of the other calls are not new
      have horigin := h.origin c₀ call₀ token₀ hother htoken₀
      have hne : token₀ ≠ token := by
        rintro rfl
        rw [hfresh] at horigin
        cases horigin
      show Function.update s.generated token _ token₀ = _
      rw [Function.update_of_ne hne, horigin]

theorem Coherent.kill (h : Coherent s) (p : Pid) : Coherent (s.kill p) := by
  refine ⟨?_, ?_⟩
  · intro c₀ call₀ hcall₀ hholds₀
    obtain ⟨hold, hpid⟩ := calls_kill.mp hcall₀
    show s.lock.filter _ = some c₀
    rw [h.holder c₀ call₀ hold hholds₀, Option.filter_some, hold]
    simp [hpid]
  · intro c₀ call₀ token hcall₀ htoken
    exact h.origin c₀ call₀ token (calls_kill.mp hcall₀).1 htoken

theorem Coherent.step (h : Coherent s) {a : Action} (hstep : Step s a s') : Coherent s' := by
  cases hstep with
  | start => exact h.congr rfl rfl rfl
  | spawn => exact h.congr rfl rfl rfl
  | call => exact h.setCall rfl rfl
  | look => exact h.setCall rfl rfl
  | lock _ _ _ _ _ hfree => exact h.take rfl hfree
  | probe _ _ _ _ _ hfree => exact h.take rfl hfree
  | busy => exact h.setCall rfl rfl
  | refused => exact h.dropCall
  | inherit => exact h.setCall rfl rfl
  | validated => exact h.dropCall
  | rejected => exact h.dropCall
  | generate _ _ _ hcall hphase _ hfresh => exact h.generate hcall hphase hfresh
  | truncate c call token hcall hphase =>
    have hnext : Coherent (s.setPhase c call (.truncated token)) :=
      h.advance hcall (by rw [hphase]; rfl) (by rw [hphase]; rfl)
    exact hnext.congr rfl rfl rfl
  | write c call token hcall hphase =>
    have hnext : Coherent (s.setPhase c call (.written token)) :=
      h.advance hcall (by rw [hphase]; rfl) (by rw [hphase]; rfl)
    exact hnext.congr rfl rfl rfl
  | enter c call token hcall hphase =>
    have hnext : Coherent (s.setPhase c call (.body token)) :=
      h.advance hcall (by rw [hphase]; rfl) (by rw [hphase]; rfl)
    exact hnext.congr rfl rfl rfl
  | launch c call token q hcall =>
    have hnext : Coherent (s.setCall c { call with child := some q }) :=
      h.replace hcall rfl rfl id fun _ => id
    exact hnext.congr rfl rfl rfl
  | clear c call token hcall hphase =>
    have hnext : Coherent (s.setPhase c call (.cleared token)) :=
      h.advance hcall (by rw [hphase]; rfl) (by rw [hphase]; rfl)
    exact hnext.congr rfl rfl rfl
  | clearFails c call token hcall hphase =>
    have hnext : Coherent (s.setPhase c call (.cleared token)) :=
      h.advance hcall (by rw [hphase]; rfl) (by rw [hphase]; rfl)
    exact hnext.congr rfl rfl rfl
  | unlock c call hcall hphase =>
    apply h.release hcall
    · obtain hprobing | ⟨token, hcleared⟩ := hphase
      · rw [hprobing]
        rfl
      · rw [hcleared]
        rfl
    · intro c₀ call₀ hcall₀ hholds₀
      obtain ⟨rfl, rfl⟩ | ⟨hne, hother⟩ := calls_setCall.mp hcall₀
      · cases hholds₀
      · exact ⟨hother, hne⟩
    · intro c₀ call₀ token₀ hcall₀ htoken₀
      obtain ⟨rfl, rfl⟩ | ⟨-, hother⟩ := calls_setCall.mp hcall₀
      · cases htoken₀
      · exact hother
    · rfl
  | close => exact h.dropCall
  | leave => exact h.dropCall
  | fail c call hcall hphase =>
    apply h.release hcall
    · obtain hlocked | ⟨token, hprepared⟩ | ⟨token, htruncated⟩ | ⟨token, hwritten⟩ := hphase
      · rw [hlocked]
        rfl
      · rw [hprepared]
        rfl
      · rw [htruncated]
        rfl
      · rw [hwritten]
        rfl
    · intro c₀ call₀ hcall₀ _
      obtain ⟨hne, hother⟩ := calls_dropCall.mp hcall₀
      exact ⟨hother, hne⟩
    · intro c₀ call₀ _ hcall₀ _
      exact (calls_dropCall.mp hcall₀).2
    · rfl
  | kill p => exact h.kill p

end NixNas.Operation
