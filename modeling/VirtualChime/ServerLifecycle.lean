import VirtualChime.Library.Handles
import VirtualChime.Library.Runs

/-!
# The web server from `Start` to `Stop`

`WebServer::Start`, `Stop`, `AcceptLoop` and `HandleConnection`, call by call: the thread that calls
`Start` and `Stop` and the thread that accepts connections take steps in any order, and any call of
the system or of OpenSSL may fail.
-/

namespace VirtualChime.Webd.Lifecycle

open Handles

/-! ## 1. The two threads -/

inductive SocketCall where
  | address
  | bind
  | listen
  deriving DecidableEq, Repr

/-- Where the caller of `Start` and `Stop` is. -/
inductive CallPoint where
  | idle
  -- `Start`
  | tls
  | newContext
  | certificate (ctx : ℕ)
  | privateKey (ctx : ℕ)
  | socket (ctx : ℕ)
  | listening (call : SocketCall) (ctx : ℕ)
  | publish (ctx : ℕ)
  | storeRunning
  | spawn
  -- `Stop`
  | exchange
  | shutdown
  | close
  | forget
  | join
  | freeContext
  deriving DecidableEq, Repr

def SocketCall.next (ctx : ℕ) : SocketCall → CallPoint
  | .address => .listening .bind ctx
  | .bind => .listening .listen ctx
  | .listen => .publish ctx

/-- Where the accepting thread is, in `AcceptLoop` or in `HandleConnection`. -/
inductive ThreadPoint where
  | check
  | readFd
  | accept (listen_fd : Option ℕ)
  | failed (eintr : Bool)
  | newSsl (client : ℕ)
  | handshake (client ssl : ℕ)
  /-- The request is read and answered. -/
  | serve (client ssl : ℕ)
  | shutdown (client ssl : ℕ)
  | freeSsl (client ssl : ℕ)
  | closeClient (client : ℕ)
  | finished
  deriving DecidableEq, Repr

structure Server where
  running_ : Bool := false
  listen_fd_ : Option ℕ := none
  ssl_ctx_ : Option ℕ := none
  /-- The thread, as long as it is joinable. -/
  accept_thread_ : Option ThreadPoint := none
  caller : CallPoint := .idle
  handles : Table := []
  /-- A handle was used after it was closed, or closed twice, or the process was terminated as a
  joinable thread was assigned to.  Calls of `accept` are left out: `Stop` closes the socket before
  it joins the thread. -/
  fault : Bool := false
  deriving DecidableEq, Repr

/-- What a call comes back with. -/
structure CallIo where
  ok : Bool := true
  /-- Whether `errno` is `EINTR`. -/
  eintr : Bool := false
  deriving DecidableEq, Repr

namespace Server

def use (s : Server) (h : ℕ) : Server := { s with fault := s.fault || !s.handles.isOpen h }

def release (s : Server) (h : ℕ) : Server :=
  { s.use h with handles := s.handles.close h }

/-- `Start` gives up and frees the context. -/
def abandon (s : Server) (ctx : ℕ) : Server := { s.release ctx with caller := .idle }

/-- `Start` gives up with the socket open. -/
def abandonSocket (s : Server) (ctx : ℕ) : Server :=
  match s.listen_fd_ with
  | none => s.abandon ctx
  | some fd => { s.release fd with listen_fd_ := none }.abandon ctx

def useListenFd (s : Server) : Server :=
  match s.listen_fd_ with
  | none => s
  | some fd => s.use fd

/-- A step of the caller. -/
def stepCaller (s : Server) (io : CallIo) : Option Server :=
  match s.caller with
  | .idle => none
  | .tls => some { s with caller := if io.ok then .newContext else .idle }
  | .newContext =>
      if io.ok then
        some { s with handles := s.handles.openNew, caller := .certificate s.handles.length }
      else some { s with caller := .idle }
  | .certificate ctx =>
      some (if io.ok then { s.use ctx with caller := .privateKey ctx } else (s.use ctx).abandon ctx)
  | .privateKey ctx =>
      some (if io.ok then { s.use ctx with caller := .socket ctx } else (s.use ctx).abandon ctx)
  | .socket ctx =>
      if io.ok then
        some { s with
          handles := s.handles.openNew
          listen_fd_ := some s.handles.length
          caller := .listening .address ctx }
      else some ({ s with listen_fd_ := none }.abandon ctx)
  | .listening call ctx =>
      some (if io.ok then { s.useListenFd with caller := call.next ctx }
        else s.useListenFd.abandonSocket ctx)
  | .publish ctx => some { s with ssl_ctx_ := some ctx, caller := .storeRunning }
  | .storeRunning => some { s with running_ := true, caller := .spawn }
  | .spawn =>
      -- the exception of a `std::thread` that cannot start ends the process, as does assigning to a
      -- joinable one
      if io.ok then
        some { s with
          fault := s.fault || s.accept_thread_.isSome
          accept_thread_ := some .check
          caller := .idle }
      else none
  | .exchange =>
      some (if s.running_ then { s with running_ := false, caller := .shutdown }
        else { s with caller := .idle })
  | .shutdown =>
      match s.listen_fd_ with
      | none => some { s with caller := .join }
      | some fd => some { s.use fd with caller := .close }
  | .close =>
      match s.listen_fd_ with
      | none => none
      | some fd => some { s.release fd with caller := .forget }
  | .forget => some { s with listen_fd_ := none, caller := .join }
  | .join =>
      match s.accept_thread_ with
      | none => some { s with caller := .freeContext }
      | some .finished => some { s with accept_thread_ := none, caller := .freeContext }
      | some _ => none
  | .freeContext =>
      match s.ssl_ctx_ with
      | none => some { s with caller := .idle }
      | some ctx => some { s.release ctx with ssl_ctx_ := none, caller := .idle }

/-- A step of the accepting thread. -/
def stepThread (s : Server) (point : ThreadPoint) (io : CallIo) : Server × Option ThreadPoint :=
  match point with
  | .check => (s, some (if s.running_ then .readFd else .finished))
  | .readFd => (s, some (.accept s.listen_fd_))
  | .accept listen_fd =>
      -- a socket that is closed accepts nothing
      if io.ok && listen_fd.any s.handles.isOpen then
        ({ s with handles := s.handles.openNew }, some (.newSsl s.handles.length))
      else (s, some (.failed io.eintr))
  | .failed eintr => (s, some (if eintr || s.running_ then .check else .finished))
  | .newSsl client =>
      match s.ssl_ctx_ with
      | none => (s.release client, some .check)
      | some ctx =>
          if io.ok then
            ({ s.use ctx with handles := s.handles.openNew },
              some (.handshake client s.handles.length))
          else ((s.use ctx).release client, some .check)
  | .handshake client ssl =>
      ((s.use ssl).use client, some (if io.ok then .serve client ssl else .shutdown client ssl))
  | .serve client ssl => ((s.use ssl).use client, some (.shutdown client ssl))
  | .shutdown client ssl => ((s.use ssl).use client, some (.freeSsl client ssl))
  | .freeSsl client ssl => (s.release ssl, some (.closeClient client))
  | .closeClient client => (s.release client, some .check)
  | .finished => (s, none)

inductive Action where
  | start
  | stop
  | caller (io : CallIo)
  | thread (io : CallIo)
  deriving DecidableEq, Repr

def step (s : Server) : Action → Option Server
  | .start =>
      if s.caller = .idle then some { s with caller := if s.running_ then .idle else .tls }
      else none
  | .stop => if s.caller = .idle then some { s with caller := .exchange } else none
  | .caller io => s.stepCaller io
  | .thread io =>
      s.accept_thread_.bind fun point =>
        (s.stepThread point io).2.map fun next =>
          { (s.stepThread point io).1 with accept_thread_ := some next }

abbrev Reachable (s : Server) : Prop := Runs.Reaches step (fun _ _ => True) {} s

end Server

/-! ## 2. Who holds what -/

def ThreadPoint.held : ThreadPoint → List ℕ
  | .newSsl client => [client]
  | .handshake client ssl => [ssl, client]
  | .serve client ssl => [ssl, client]
  | .shutdown client ssl => [ssl, client]
  | .freeSsl client ssl => [ssl, client]
  | .closeClient client => [client]
  | _ => []

/-- The thread calls `accept` with this socket only. -/
def ThreadPoint.Accepts (fd : ℕ) : ThreadPoint → Prop
  | .accept listen_fd => listen_fd = some fd
  | _ => True

/-- The server at each point of its life, with the handles that are open. -/
inductive Sound : Server → Prop where
  | stopped {caller : CallPoint} {handles : Table}
      (point : caller ∈ [CallPoint.idle, .exchange, .tls, .newContext])
      (owned : Owned handles []) : Sound ⟨false, none, none, none, caller, handles, false⟩
  | context {caller : CallPoint} {handles : Table} (ctx : ℕ)
      (point : caller ∈ [CallPoint.certificate ctx, .privateKey ctx, .socket ctx])
      (owned : Owned handles [ctx]) : Sound ⟨false, none, none, none, caller, handles, false⟩
  | listening {handles : Table} (fd ctx : ℕ) (call : SocketCall)
      (owned : Owned handles [fd, ctx]) :
      Sound ⟨false, some fd, none, none, .listening call ctx, handles, false⟩
  | publish {handles : Table} (fd ctx : ℕ) (owned : Owned handles [fd, ctx]) :
      Sound ⟨false, some fd, none, none, .publish ctx, handles, false⟩
  | storeRunning {handles : Table} (fd ctx : ℕ) (owned : Owned handles [fd, ctx]) :
      Sound ⟨false, some fd, some ctx, none, .storeRunning, handles, false⟩
  | spawn {handles : Table} (fd ctx : ℕ) (owned : Owned handles [fd, ctx]) :
      Sound ⟨true, some fd, some ctx, none, .spawn, handles, false⟩
  | serving {caller : CallPoint} {handles : Table} {thread : ThreadPoint} (fd ctx : ℕ)
      (point : caller ∈ [CallPoint.idle, .exchange]) (live : thread ≠ .finished)
      (accepts : thread.Accepts fd) (owned : Owned handles ([fd, ctx] ++ thread.held)) :
      Sound ⟨true, some fd, some ctx, some thread, caller, handles, false⟩
  | stopping {caller : CallPoint} {handles : Table} {thread : ThreadPoint} (fd ctx : ℕ)
      (point : caller ∈ [CallPoint.shutdown, .close]) (accepts : thread.Accepts fd)
      (owned : Owned handles ([fd, ctx] ++ thread.held)) :
      Sound ⟨false, some fd, some ctx, some thread, caller, handles, false⟩
  /-- The member `listen_fd_` is the number of a socket that is closed. -/
  | forget {handles : Table} {thread : ThreadPoint} (fd ctx : ℕ)
      (owned : Owned handles ([ctx] ++ thread.held)) :
      Sound ⟨false, some fd, some ctx, some thread, .forget, handles, false⟩
  | join {handles : Table} {thread : ThreadPoint} (ctx : ℕ)
      (owned : Owned handles ([ctx] ++ thread.held)) :
      Sound ⟨false, none, some ctx, some thread, .join, handles, false⟩
  | freeContext {handles : Table} (ctx : ℕ) (owned : Owned handles [ctx]) :
      Sound ⟨false, none, some ctx, none, .freeContext, handles, false⟩

theorem sound_init : Sound {} := .stopped (by simp) owned_nil

namespace Server

variable {s t : Server}

section Open

variable {running : Bool} {listen ctx : Option ℕ} {thread : Option ThreadPoint}
  {caller : CallPoint} {handles : Table} {fault : Bool} {i : ℕ}

/-- What is open can be used. -/
theorem use_of_open (hopen : handles.isOpen i = true) :
    use ⟨running, listen, ctx, thread, caller, handles, fault⟩ i =
      ⟨running, listen, ctx, thread, caller, handles, fault⟩ := by
  simp only [use, hopen, Bool.not_true, Bool.or_false]

theorem release_of_open (hopen : handles.isOpen i = true) :
    release ⟨running, listen, ctx, thread, caller, handles, fault⟩ i =
      ⟨running, listen, ctx, thread, caller, handles.close i, fault⟩ := by
  rw [release, use_of_open hopen]

end Open

/-! ## 3. The caller's steps -/

/-- `Start` gives up before it has a socket. -/
theorem sound_abandon {ctx : ℕ} {caller : CallPoint} {handles : Table}
    (owned : Owned handles [ctx]) :
    Sound (abandon ⟨false, none, none, none, caller, handles, false⟩ ctx) := by
  have hopen : handles.isOpen ctx = true := owned.isOpen_iff.mpr (by simp)
  rw [abandon, release_of_open hopen]
  exact .stopped (by simp) (owned.close [] [])

theorem sound_abandonSocket {fd ctx : ℕ} {caller : CallPoint} {handles : Table}
    (owned : Owned handles [fd, ctx]) :
    Sound (abandonSocket ⟨false, some fd, none, none, caller, handles, false⟩ ctx) := by
  have hopen : handles.isOpen fd = true := owned.isOpen_iff.mpr (by simp)
  simp only [abandonSocket, release_of_open hopen]
  exact sound_abandon (owned.close [] [ctx])

theorem sound_stepCaller (h : Sound s) {io : CallIo} (hstep : s.stepCaller io = some t) :
    Sound t := by
  cases h with
  | stopped point owned =>
    simp only [List.mem_cons, List.not_mem_nil, or_false] at point
    rcases point with rfl | rfl | rfl | rfl
    · cases hstep
    · obtain rfl := Option.some.inj hstep
      exact .stopped (by simp) owned
    · obtain rfl := Option.some.inj hstep
      dsimp only
      split <;> exact .stopped (by simp) owned
    · simp only [stepCaller] at hstep
      split at hstep
      · obtain rfl := Option.some.inj hstep
        exact .context _ (by simp) (owned.openNew [] [])
      · obtain rfl := Option.some.inj hstep
        exact .stopped (by simp) owned
  | context ctx point owned =>
    have hopen := owned.isOpen_iff.mpr (List.mem_cons_self (a := ctx))
    simp only [List.mem_cons, List.not_mem_nil, or_false] at point
    rcases point with rfl | rfl | rfl
    · simp only [stepCaller, use_of_open hopen] at hstep
      obtain rfl := Option.some.inj hstep
      split
      · exact .context ctx (by simp) owned
      · exact sound_abandon owned
    · simp only [stepCaller, use_of_open hopen] at hstep
      obtain rfl := Option.some.inj hstep
      split
      · exact .context ctx (by simp) owned
      · exact sound_abandon owned
    · simp only [stepCaller] at hstep
      split at hstep
      · obtain rfl := Option.some.inj hstep
        exact .listening _ ctx .address (owned.openNew [] [ctx])
      · obtain rfl := Option.some.inj hstep
        exact sound_abandon owned
  | listening fd ctx call owned =>
    have hopen := owned.isOpen_iff.mpr (List.mem_cons_self (a := fd))
    simp only [stepCaller, useListenFd, use_of_open hopen] at hstep
    obtain rfl := Option.some.inj hstep
    split
    · cases call with
      | address => exact .listening fd ctx .bind owned
      | bind => exact .listening fd ctx .listen owned
      | listen => exact .publish fd ctx owned
    · exact sound_abandonSocket owned
  | publish fd ctx owned =>
    obtain rfl := Option.some.inj hstep
    exact .storeRunning fd ctx owned
  | storeRunning fd ctx owned =>
    obtain rfl := Option.some.inj hstep
    exact .spawn fd ctx owned
  | spawn fd ctx owned =>
    simp only [stepCaller] at hstep
    split at hstep
    · obtain rfl := Option.some.inj hstep
      exact .serving fd ctx (by simp) (fun h => by cases h) trivial owned
    · cases hstep
  | serving fd ctx point live accepts owned =>
    simp only [List.mem_cons, List.not_mem_nil, or_false] at point
    rcases point with rfl | rfl
    · cases hstep
    · obtain rfl := Option.some.inj hstep
      exact .stopping fd ctx (by simp) accepts owned
  | stopping fd ctx point accepts owned =>
    have hopen := owned.isOpen_iff.mpr (List.mem_cons_self (a := fd))
    simp only [List.mem_cons, List.not_mem_nil, or_false] at point
    rcases point with rfl | rfl
    · simp only [stepCaller, use_of_open hopen] at hstep
      obtain rfl := Option.some.inj hstep
      exact .stopping fd ctx (by simp) accepts owned
    · simp only [stepCaller, release_of_open hopen] at hstep
      obtain rfl := Option.some.inj hstep
      exact .forget fd ctx (owned.close [] _)
  | forget fd ctx owned =>
    obtain rfl := Option.some.inj hstep
    exact .join ctx owned
  | @join handles thread ctx owned =>
    cases thread with
    | finished =>
      obtain rfl := Option.some.inj hstep
      exact .freeContext ctx owned
    | _ => cases hstep
  | freeContext ctx owned =>
    have hopen := owned.isOpen_iff.mpr (List.mem_cons_self (a := ctx))
    simp only [stepCaller, release_of_open hopen] at hstep
    obtain rfl := Option.some.inj hstep
    exact .stopped (by simp) (owned.close [] [])

/-! ## 4. The accepting thread's steps -/

/-- The thread opens, uses and closes what it holds, and leaves the members alone; it ends only
when the server has been told to stop. -/
theorem owned_stepThread {running : Bool} {listen : Option ℕ} {ctx : ℕ} {caller : CallPoint}
    {handles : Table} {thread : Option ThreadPoint} {point next : ThreadPoint} {io : CallIo}
    {before : List ℕ} (owned : Owned handles (before ++ point.held)) (hctx : ctx ∈ before)
    (hnext : (stepThread ⟨running, listen, some ctx, thread, caller, handles, false⟩ point io).2 =
      some next) :
    ∃ handles', (stepThread ⟨running, listen, some ctx, thread, caller, handles, false⟩ point io).1 =
        ⟨running, listen, some ctx, thread, caller, handles', false⟩ ∧
      Owned handles' (before ++ next.held) ∧ (running = true → next ≠ .finished) := by
  have hopen : ∀ i ∈ before ++ point.held, handles.isOpen i = true :=
    fun i hi => owned.isOpen_iff.mpr hi
  have hcontext := hopen ctx (List.mem_append_left _ hctx)
  cases point with
  | check =>
    obtain rfl := Option.some.inj hnext
    refine ⟨handles, rfl, ?_, ?_⟩
    · cases running <;> exact owned
    · rintro rfl
      exact fun h => by cases h
  | readFd =>
    obtain rfl := Option.some.inj hnext
    exact ⟨handles, rfl, owned, fun _ h => by cases h⟩
  | accept listen_fd =>
    simp only [stepThread] at hnext ⊢
    split at hnext
    · next hok =>
      obtain rfl := Option.some.inj hnext
      rw [if_pos hok]
      exact ⟨_, rfl, owned.openNew before [], fun _ h => by cases h⟩
    · next hok =>
      obtain rfl := Option.some.inj hnext
      rw [if_neg hok]
      exact ⟨handles, rfl, owned, fun _ h => by cases h⟩
  | failed eintr =>
    obtain rfl := Option.some.inj hnext
    refine ⟨handles, rfl, ?_, ?_⟩
    · cases eintr <;> cases running <;> exact owned
    · rintro rfl
      cases eintr <;> exact fun h => by cases h
  | newSsl client =>
    have hclient := hopen client (by simp [ThreadPoint.held])
    simp only [stepThread, use_of_open hcontext, release_of_open hclient] at hnext ⊢
    split at hnext
    · next hok =>
      obtain rfl := Option.some.inj hnext
      rw [if_pos hok]
      exact ⟨_, rfl, owned.openNew before [client], fun _ h => by cases h⟩
    · next hok =>
      obtain rfl := Option.some.inj hnext
      rw [if_neg hok]
      exact ⟨_, rfl, owned.close before [], fun _ h => by cases h⟩
  | handshake client ssl =>
    have hclient := hopen client (by simp [ThreadPoint.held])
    have hssl := hopen ssl (by simp [ThreadPoint.held])
    simp only [stepThread, use_of_open hssl, use_of_open hclient] at hnext ⊢
    obtain rfl := Option.some.inj hnext
    refine ⟨handles, rfl, ?_, ?_⟩
    · split <;> exact owned
    · intro _
      split <;> exact fun h => by cases h
  | serve client ssl =>
    have hclient := hopen client (by simp [ThreadPoint.held])
    have hssl := hopen ssl (by simp [ThreadPoint.held])
    simp only [stepThread, use_of_open hssl, use_of_open hclient] at hnext ⊢
    obtain rfl := Option.some.inj hnext
    exact ⟨handles, rfl, owned, fun _ h => by cases h⟩
  | shutdown client ssl =>
    have hclient := hopen client (by simp [ThreadPoint.held])
    have hssl := hopen ssl (by simp [ThreadPoint.held])
    simp only [stepThread, use_of_open hssl, use_of_open hclient] at hnext ⊢
    obtain rfl := Option.some.inj hnext
    exact ⟨handles, rfl, owned, fun _ h => by cases h⟩
  | freeSsl client ssl =>
    have hssl := hopen ssl (by simp [ThreadPoint.held])
    simp only [stepThread, release_of_open hssl] at hnext ⊢
    obtain rfl := Option.some.inj hnext
    exact ⟨_, rfl, owned.close before [client], fun _ h => by cases h⟩
  | closeClient client =>
    have hclient := hopen client (by simp [ThreadPoint.held])
    simp only [stepThread, release_of_open hclient] at hnext ⊢
    obtain rfl := Option.some.inj hnext
    exact ⟨_, rfl, owned.close before [], fun _ h => by cases h⟩
  | finished => cases hnext

/-- The thread reads the socket that it calls `accept` with from the member. -/
theorem accepts_stepThread {fd : ℕ} (hlisten : s.listen_fd_ = some fd) {point next : ThreadPoint}
    {io : CallIo} (hnext : (s.stepThread point io).2 = some next) : next.Accepts fd := by
  cases point with
  | readFd =>
    obtain rfl := Option.some.inj hnext
    exact hlisten
  | check =>
    obtain rfl := Option.some.inj hnext
    split <;> trivial
  | accept listen_fd =>
    simp only [stepThread] at hnext
    split at hnext <;> obtain rfl := Option.some.inj hnext <;> trivial
  | failed eintr =>
    obtain rfl := Option.some.inj hnext
    split <;> trivial
  | newSsl client =>
    simp only [stepThread] at hnext
    split at hnext
    · obtain rfl := Option.some.inj hnext
      trivial
    · split at hnext <;> obtain rfl := Option.some.inj hnext <;> trivial
  | handshake client ssl =>
    obtain rfl := Option.some.inj hnext
    split <;> trivial
  | finished => cases hnext
  | _ =>
    obtain rfl := Option.some.inj hnext
    trivial

theorem sound_stepThread (h : Sound s) {io : CallIo} (hstep : s.step (.thread io) = some t) :
    Sound t := by
  obtain ⟨point, hthread, hmap⟩ := Option.bind_eq_some_iff.mp hstep
  obtain ⟨next, hnext, rfl⟩ := Option.map_eq_some_iff.mp hmap
  cases h with
  | serving fd ctx caller live accepts owned =>
    obtain rfl := Option.some.inj hthread
    obtain ⟨handles', hsame, howned, hlive⟩ :=
      owned_stepThread owned (List.mem_cons_of_mem _ (List.mem_cons_self ..)) hnext
    have haccepts := accepts_stepThread rfl hnext
    rw [hsame]
    exact .serving fd ctx caller (hlive rfl) haccepts howned
  | stopping fd ctx caller accepts owned =>
    obtain rfl := Option.some.inj hthread
    obtain ⟨handles', hsame, howned, -⟩ :=
      owned_stepThread owned (List.mem_cons_of_mem _ (List.mem_cons_self ..)) hnext
    have haccepts := accepts_stepThread rfl hnext
    rw [hsame]
    exact .stopping fd ctx caller haccepts howned
  | forget fd ctx owned =>
    obtain rfl := Option.some.inj hthread
    obtain ⟨handles', hsame, howned, -⟩ := owned_stepThread owned (List.mem_cons_self ..) hnext
    rw [hsame]
    exact .forget fd ctx howned
  | join ctx owned =>
    obtain rfl := Option.some.inj hthread
    obtain ⟨handles', hsame, howned, -⟩ := owned_stepThread owned (List.mem_cons_self ..) hnext
    rw [hsame]
    exact .join ctx howned
  | _ => cases hthread

/-! ## 5. Every run -/

/-- Between calls the server is stopped, with nothing open, or it serves. -/
theorem idle_cases (h : Sound s) (hidle : s.caller = .idle) :
    (∃ handles, Owned handles [] ∧ s = ⟨false, none, none, none, .idle, handles, false⟩) ∨
    (∃ fd ctx thread handles, thread ≠ .finished ∧ thread.Accepts fd ∧
      Owned handles ([fd, ctx] ++ thread.held) ∧
      s = ⟨true, some fd, some ctx, some thread, .idle, handles, false⟩) := by
  cases h with
  | stopped point owned =>
    obtain rfl := hidle
    exact Or.inl ⟨_, owned, rfl⟩
  | serving fd ctx point live accepts owned =>
    obtain rfl := hidle
    exact Or.inr ⟨fd, ctx, _, _, live, accepts, owned, rfl⟩
  | context ctx point owned =>
    obtain rfl := hidle
    simp at point
  | stopping fd ctx point accepts owned =>
    obtain rfl := hidle
    simp at point
  | _ => cases hidle

theorem sound_step (h : Sound s) {a : Action} (hstep : s.step a = some t) : Sound t := by
  cases a with
  | start =>
    simp only [step] at hstep
    split at hstep
    · next hidle =>
      obtain rfl := Option.some.inj hstep
      rcases idle_cases h hidle with ⟨handles, owned, rfl⟩ | ⟨fd, ctx, _, _, live, accepts, owned, rfl⟩
      · exact .stopped (by simp) owned
      · exact .serving fd ctx (by simp) live accepts owned
    · cases hstep
  | stop =>
    simp only [step] at hstep
    split at hstep
    · next hidle =>
      obtain rfl := Option.some.inj hstep
      rcases idle_cases h hidle with ⟨handles, owned, rfl⟩ | ⟨fd, ctx, _, _, live, accepts, owned, rfl⟩
      · exact .stopped (by simp) owned
      · exact .serving fd ctx (by simp) live accepts owned
    · cases hstep
  | caller io => exact sound_stepCaller h hstep
  | thread io => exact sound_stepThread h hstep

theorem sound_of_reachable (h : s.Reachable) : Sound s :=
  h.invariant sound_init fun _ _ _ hsound _ hstep => sound_step hsound hstep

/-- The thread calls `accept` with an open socket, until `Stop` has closed this and waits for the
thread to end. -/
theorem accept_cases (h : Sound s) {listen_fd : Option ℕ}
    (hthread : s.accept_thread_ = some (.accept listen_fd)) :
    (∃ fd, listen_fd = some fd ∧ s.handles.isOpen fd = true) ∨
      (s.running_ = false ∧ (s.caller = .forget ∨ s.caller = .join)) := by
  cases h with
  | serving fd ctx point live accepts owned =>
    obtain rfl := Option.some.inj hthread
    exact Or.inl ⟨fd, accepts, owned.isOpen_iff.mpr (by simp)⟩
  | stopping fd ctx point accepts owned =>
    obtain rfl := Option.some.inj hthread
    exact Or.inl ⟨fd, accepts, owned.isOpen_iff.mpr (by simp)⟩
  | forget fd ctx owned => exact Or.inr ⟨rfl, Or.inl rfl⟩
  | join ctx owned => exact Or.inr ⟨rfl, Or.inr rfl⟩
  | _ => cases hthread

/-- As long as a call of `Start` or `Stop` is under way, one of the threads can go on. -/
theorem can_step (h : Sound s) (hbusy : s.caller ≠ .idle) :
    (s.step (.caller {})).isSome = true ∨ (s.step (.thread {})).isSome = true := by
  cases h with
  | stopped point owned =>
    simp only [List.mem_cons, List.not_mem_nil, or_false] at point
    rcases point with rfl | rfl | rfl | rfl
    · exact absurd rfl hbusy
    · exact Or.inl rfl
    · exact Or.inl rfl
    · exact Or.inl rfl
  | context ctx point owned =>
    simp only [List.mem_cons, List.not_mem_nil, or_false] at point
    rcases point with rfl | rfl | rfl <;> exact Or.inl rfl
  | serving fd ctx point live accepts owned =>
    simp only [List.mem_cons, List.not_mem_nil, or_false] at point
    rcases point with rfl | rfl
    · exact absurd rfl hbusy
    · exact Or.inl rfl
  | stopping fd ctx point accepts owned =>
    simp only [List.mem_cons, List.not_mem_nil, or_false] at point
    rcases point with rfl | rfl <;> exact Or.inl rfl
  | @join handles thread ctx owned =>
    cases thread with
    | finished => exact Or.inl rfl
    | accept listen_fd =>
      right
      simp only [step, stepThread, Option.bind_some]
      split <;> rfl
    | _ => exact Or.inr rfl
  | _ => exact Or.inl rfl

end Server

/-! ## 6. The end of `Stop` -/

/-- How many steps the thread takes at the most once the server has been told to stop. -/
def ThreadPoint.rank : ThreadPoint → ℕ
  | .finished => 0
  | .check => 1
  | .failed _ => 2
  | .closeClient _ => 2
  | .freeSsl .. => 3
  | .shutdown .. => 4
  | .serve .. => 5
  | .handshake .. => 6
  | .newSsl _ => 7
  | .accept _ => 8
  | .readFd => 9

def CallPoint.rank : CallPoint → ℕ
  | .shutdown => 5
  | .close => 4
  | .forget => 3
  | .join => 2
  | .freeContext => 1
  | _ => 0

namespace Server

variable {s t : Server}

def rank (s : Server) : ℕ := s.caller.rank + (s.accept_thread_.map ThreadPoint.rank).getD 0

/-- A step of one of the two threads, not a new call. -/
def Action.isStep : Action → Bool
  | .caller _ => true
  | .thread _ => true
  | _ => false

/-- `Stop` is under way, or is over. -/
def Stopping (s : Server) : Prop :=
  Sound s ∧ s.running_ = false ∧
    s.caller ∈ [CallPoint.shutdown, .close, .forget, .join, .freeContext, .idle]

theorem stepThread_same (s : Server) (point : ThreadPoint) (io : CallIo) :
    (s.stepThread point io).1.running_ = s.running_ ∧
      (s.stepThread point io).1.caller = s.caller := by
  cases point with
  | accept listen_fd =>
    simp only [stepThread]
    split <;> exact ⟨rfl, rfl⟩
  | newSsl client =>
    simp only [stepThread]
    split
    · exact ⟨rfl, rfl⟩
    · split <;> exact ⟨rfl, rfl⟩
  | _ => exact ⟨rfl, rfl⟩

theorem rank_stepThread (hstopped : s.running_ = false) {point next : ThreadPoint} {io : CallIo}
    (hnext : (s.stepThread point io).2 = some next) : next.rank < point.rank := by
  cases point with
  | check =>
    obtain rfl := Option.some.inj hnext
    simp [hstopped, ThreadPoint.rank]
  | accept listen_fd =>
    simp only [stepThread] at hnext
    split at hnext <;> obtain rfl := Option.some.inj hnext <;> simp [ThreadPoint.rank]
  | failed eintr =>
    obtain rfl := Option.some.inj hnext
    split <;> simp [ThreadPoint.rank]
  | newSsl client =>
    simp only [stepThread] at hnext
    split at hnext
    · obtain rfl := Option.some.inj hnext
      simp [ThreadPoint.rank]
    · split at hnext <;> obtain rfl := Option.some.inj hnext <;> simp [ThreadPoint.rank]
  | handshake client ssl =>
    obtain rfl := Option.some.inj hnext
    split <;> simp [ThreadPoint.rank]
  | finished => cases hnext
  | _ =>
    obtain rfl := Option.some.inj hnext
    simp [ThreadPoint.rank]

theorem stopping_stepCaller (h : Stopping s) {io : CallIo} (hstep : s.stepCaller io = some t) :
    t.running_ = false ∧
      t.caller ∈ [CallPoint.shutdown, .close, .forget, .join, .freeContext, .idle] ∧
      t.rank < s.rank := by
  obtain ⟨hsound, hstopped, hpoint⟩ := h
  cases hsound with
  | stopped point owned =>
    simp only [List.mem_cons, List.not_mem_nil, or_false] at point
    rcases point with rfl | rfl | rfl | rfl
    · cases hstep
    · simp at hpoint
    · simp at hpoint
    · simp at hpoint
  | context ctx point owned =>
    simp only [List.mem_cons, List.not_mem_nil, or_false] at point
    rcases point with rfl | rfl | rfl <;> simp at hpoint
  | serving fd ctx point live accepts owned => cases hstopped
  | spawn fd ctx owned => cases hstopped
  | stopping fd ctx point accepts owned =>
    simp only [List.mem_cons, List.not_mem_nil, or_false] at point
    rcases point with rfl | rfl
    · obtain rfl := Option.some.inj hstep
      simp [use, rank, CallPoint.rank]
    · obtain rfl := Option.some.inj hstep
      simp [release, use, rank, CallPoint.rank]
  | forget fd ctx owned =>
    obtain rfl := Option.some.inj hstep
    simp [rank, CallPoint.rank]
  | @join handles thread ctx owned =>
    cases thread with
    | finished =>
      obtain rfl := Option.some.inj hstep
      simp [rank, CallPoint.rank, ThreadPoint.rank]
    | _ => cases hstep
  | freeContext ctx owned =>
    obtain rfl := Option.some.inj hstep
    simp [release, use, rank, CallPoint.rank]
  | _ => simp at hpoint

theorem stopping_step (h : Stopping s) {a : Action} (ha : a.isStep = true)
    (hstep : s.step a = some t) : Stopping t ∧ t.rank < s.rank := by
  obtain ⟨hsound, hstopped, hpoint⟩ := h
  have ht := sound_step hsound hstep
  cases a with
  | start => cases ha
  | stop => cases ha
  | thread io =>
    obtain ⟨point, hthread, hmap⟩ := Option.bind_eq_some_iff.mp hstep
    obtain ⟨next, hnext, rfl⟩ := Option.map_eq_some_iff.mp hmap
    obtain ⟨hrunning, hcaller⟩ := stepThread_same s point io
    have hlt := rank_stepThread hstopped hnext
    refine ⟨⟨ht, hrunning.trans hstopped, ?_⟩, ?_⟩
    · exact hcaller ▸ hpoint
    · rw [rank, rank, hthread, hcaller]
      exact Nat.add_lt_add_left hlt _
  | caller io =>
    obtain ⟨hrunning, hmem, hlt⟩ := stopping_stepCaller ⟨hsound, hstopped, hpoint⟩ hstep
    exact ⟨⟨ht, hrunning, hmem⟩, hlt⟩

theorem rank_le (point : ThreadPoint) : point.rank ≤ 9 := by
  cases point <;> simp [ThreadPoint.rank]

end Server

open Server in
/-- In every interleaving of the caller of `Start` and `Stop` with the accepting thread, whatever
fails: no handle is used after it was closed or closed twice, but for the socket in calls of
`accept` while `Stop` waits for the thread, and no joinable thread is assigned to; a server that is
stopped has nothing open and no thread, one that runs has open exactly its socket, its context and
what the connection being served holds; as long as the calls return, `Start` and `Stop` never get
stuck, and a `Stop` that has told the thread to end returns within fourteen steps of the two. -/
theorem server_lifecycle {s : Server} (h : s.Reachable) :
    s.fault = false ∧
    (∀ listen_fd, s.accept_thread_ = some (.accept listen_fd) →
      (∃ fd, listen_fd = some fd ∧ s.handles.isOpen fd = true) ∨
        (s.running_ = false ∧ (s.caller = .forget ∨ s.caller = .join))) ∧
    (s.caller = .idle → s.running_ = false →
      s.accept_thread_ = none ∧ ∀ i, s.handles.isOpen i = false) ∧
    (s.caller = .idle → s.running_ = true → ∃ fd ctx point, s.listen_fd_ = some fd ∧
      s.ssl_ctx_ = some ctx ∧ s.accept_thread_ = some point ∧ point ≠ .finished ∧
      ([fd, ctx] ++ point.held).Nodup ∧
      ∀ i, s.handles.isOpen i = true ↔ i ∈ [fd, ctx] ++ point.held) ∧
    (s.caller ≠ .idle →
      (s.step (.caller {})).isSome = true ∨ (s.step (.thread {})).isSome = true) ∧
    (s.caller = .shutdown → ∀ as t, (∀ a ∈ as, a.isStep = true) →
      Runs.exec step s as = some t → as.length ≤ 14) := by
  have hsound := sound_of_reachable h
  refine ⟨?_, fun _ hthread => accept_cases hsound hthread, ?_, ?_, can_step hsound, ?_⟩
  · cases hsound <;> rfl
  · intro hidle hstopped
    rcases idle_cases hsound hidle with ⟨handles, owned, rfl⟩ | ⟨_, _, _, _, _, _, _, rfl⟩
    · refine ⟨rfl, fun i => ?_⟩
      rw [Bool.eq_false_iff, ne_eq, owned.isOpen_iff]
      simp
    · cases hstopped
  · intro hidle hrunning
    rcases idle_cases hsound hidle with ⟨_, _, rfl⟩ |
      ⟨fd, ctx, thread, handles, live, -, owned, rfl⟩
    · cases hrunning
    · exact ⟨fd, ctx, thread, rfl, rfl, rfl, live, owned.nodup, fun _ => owned.isOpen_iff⟩
  · intro hshutdown as t hall hexec
    have hstopping : Stopping s := by
      refine ⟨hsound, ?_, by rw [hshutdown]; simp⟩
      cases hsound with
      | serving fd ctx point live accepts owned =>
        obtain rfl := hshutdown
        simp at point
      | spawn fd ctx owned => cases hshutdown
      | _ => rfl
    have hrank : s.rank ≤ 14 := by
      rw [Server.rank, hshutdown]
      cases s.accept_thread_ with
      | none => decide
      | some point => exact Nat.add_le_add_left (rank_le point) 5
    obtain ⟨-, hle⟩ := Runs.length_le_of_exec
      (fun _ _ _ hs ha hstep => stopping_step hs ha hstep) (fun a ha _ => hall a ha) hstopping hexec
    omega

/-- A server that is started, answers one connection and is stopped during the handshake of the
next. -/
def twoConnections : List Server.Action := List.flatten [
  [.start], List.replicate 11 (.caller {}), List.replicate 13 (.thread {}),
  [.stop, .caller {}, .caller {}, .thread { ok := false }, .caller {}, .caller {}],
  List.replicate 4 (.thread {}), [.caller {}, .caller {}]]

theorem server_lifecycle_twoConnections :
    ∃ s, Runs.exec Server.step {} twoConnections = some s ∧ s.handles.length = 6 ∧
      ∀ i, s.handles.isOpen i = false := by
  have hrun : (Runs.exec Server.step {} twoConnections).map (fun s =>
      (s.caller, s.running_, s.handles.length)) = some (.idle, false, 6) := by
    decide +kernel
  obtain ⟨s, hexec, hlast⟩ := Option.map_eq_some_iff.mp hrun
  obtain ⟨hidle, hlast⟩ := Prod.mk.inj hlast
  obtain ⟨hstopped, hlength⟩ := Prod.mk.inj hlast
  obtain ⟨-, -, hclosed, -⟩ :=
    server_lifecycle (Runs.reaches_of_exec twoConnections (fun _ _ _ => trivial) hexec)
  exact ⟨s, hexec, hlength, (hclosed hidle hstopped).2⟩

end VirtualChime.Webd.Lifecycle
