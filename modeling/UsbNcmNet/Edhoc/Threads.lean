/-
`edhoc_post` under its mutex.

`edhoc_mtx` is there for POSTs that are handled at the same time.  What a handler does
between `k_mutex_lock` and `k_mutex_unlock` is written here once more, as a sequence of
atomic actions: a read of the globals, a write to them, or a call into a library, which
goes on the log.  Between two of them any other handler may run.  Everything before the
lock reads the request alone, and everything behind it the handler's own buffers.

A payload that fails the checks at the head of the handler is turned away before the
lock, so a `Post` carries the framing it was found to have.
-/
import UsbNcmNet.Board
import UsbNcmNet.Lib.Mutex

namespace UsbNcmNet

variable {σ : Type}

namespace Atomic

/-! ### Actions -/

/-- Read `edhoc_ctx_active`, the one global that decides anything. -/
def active : Prog (Board σ) Bool := do return (← Prog.read).dev.edhocCtxActive

def call (c : Call σ) : Prog (Board σ) Unit := .modify fun b => { b with log := b.log ++ [c] }

def update (f : Device σ → Device σ) : Prog (Board σ) Unit :=
  .modify fun b => { b with dev := f b.dev }

/-! ### The critical section -/

def configureAll (eng : Engine σ) : List SetupCall → Prog (Board σ) Int
  | [] => return EDHOC_SUCCESS
  | c :: rest => do
      call (.configure c (eng.configure c))
      if eng.configure c ≠ EDHOC_SUCCESS then
        return eng.configure c
      configureAll eng rest

def edhocSetup (eng : Engine σ) : Prog (Board σ) Int := do
  call (.contextInit eng.contextInit)
  if eng.contextInit ≠ EDHOC_SUCCESS then
    return eng.contextInit
  configureAll eng setupCalls

def deriveAndInitOscore (eng : Engine σ) : Prog (Board σ) Int := do
  let session := eng.exportOscoreSession
  call (.exportOscoreSession session)
  update fun d => { d with keys := session.keys }
  if session.ret ≠ EDHOC_SUCCESS then
    return - EIO
  call (.oscoreContextInit session.params eng.oscoreContextInit.1 eng.oscoreContextInit.2)
  update fun d => { d with oscoreCtx := eng.oscoreContextInit.2 }
  if eng.oscoreContextInit.1 ≠ .ok then
    return - EIO
  update fun d => { d with oscoreReady := true }
  return 0

def edhocMessage1 (eng : Engine σ) (msg : Bytes) : Prog (Board σ) (Int × Bytes) := do
  if ← active then
    call .contextDeinit
    update fun d => { d with edhocCtxActive := false }
  update fun d => { d with oscoreReady := false }
  let mut rc ← edhocSetup eng
  let mut out : Bytes := []
  if rc = EDHOC_SUCCESS then
    update fun d => { d with edhocCtxActive := true }
    call (.message1Process msg eng.message1Process)
    rc := eng.message1Process
  if rc = EDHOC_SUCCESS then
    call (.message2Compose eng.message2Compose.ret)
    rc := eng.message2Compose.ret
    out := eng.message2Compose.out
  if rc ≠ EDHOC_SUCCESS then
    if ← active then
      call .contextDeinit
      update fun d => { d with edhocCtxActive := false }
  return (rc, out)

def edhocMessage3 (eng : Engine σ) (msg : Bytes) : Prog (Board σ) (Int × Bytes) := do
  if !(← active) then
    return (-EINVAL, [])
  call (.message3Process msg eng.message3Process)
  let mut rc := eng.message3Process
  let mut out : Bytes := []
  if rc = EDHOC_SUCCESS then
    call (.message4Compose eng.message4Compose.ret)
    rc := eng.message4Compose.ret
    out := eng.message4Compose.out
  if rc = EDHOC_SUCCESS then
    rc ← deriveAndInitOscore eng
  call .contextDeinit
  update fun d => { d with edhocCtxActive := false }
  return (rc, out)

end Atomic

/-! ### A handler -/

/-- A POST whose payload gets past the checks, and what the libraries answer to it. -/
structure Post (σ : Type) where
  request : Request
  eng : Engine σ
  framed : Framed
  hframed : edhocDeframe request.payload = .ok framed

def Post.event (p : Post σ) : Event σ := .edhoc p.request p.eng

/-- From `k_mutex_lock` to `k_mutex_unlock`: `rc`, and `out_buf[0 .. out_len)`. -/
def Post.critical (p : Post σ) : Prog (Board σ) (Int × Bytes) :=
  match p.framed with
  | .message1 msg => Atomic.edhocMessage1 p.eng msg
  | .message3 msg => Atomic.edhocMessage3 p.eng msg

/-- Behind the lock: the return value, and the packet handed to `coap_resource_send`. -/
def Post.finish (p : Post σ) (left : Int × Bytes) : Int × Option Packet :=
  if left.1 ≠ EDHOC_SUCCESS then (-EBADMSG, none)
  else
    match edhocResponse p.request left.2 with
    | .error r => (r, none)
    | .ok response => (p.eng.send, some response)

end UsbNcmNet
