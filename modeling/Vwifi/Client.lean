import Vwifi.KernelWifi
import Vwifi.Lib.Lts

/-!
# The threads of vwifi-client

`CKernelWifi::start`, the five tasks it starts and `CKernelWifi::stop` as a
transition system. Each of them has its own program point and takes one step from
one point where another thread can come in between to the next; a label says who
moves and what the environment answers. No step leaves a state in which the
process ends.
-/

namespace Vwifi

set_option autoImplicit false

/-- The tasks in the order in which `start` starts them. -/
inductive Task where
  | hwsimloop | serverloop | monitorloop | winterfaceUpdateLoop | connectionToServerLoop
deriving DecidableEq

def Task.all : List Task :=
  [.hwsimloop, .serverloop, .monitorloop, .winterfaceUpdateLoop, .connectionToServerLoop]

/-- Where a task is. `wait` is the call that receives, from the driver or from the
server; the points behind it belong to the monitor and to the reconnection. -/
inductive Point where
  | notStarted | interruptionPoint | body | wait
  | initNetlink | waitDriver | sendRegisterMsg
  | connect | announce
  | ended
deriving DecidableEq

/-- No flag stands for `_interrupt_flag == nullptr`. -/
structure Thread where
  point : Point
  interruptFlag : Option Bool
deriving DecidableEq

/-- Where `start` is. -/
inductive MainPoint where
  | created | initNetlinkFirst | waitDriver | sendRegisterMsg | initialized | monitorWireless
  | connect | retry | announce
  | startTasks (tasks : List Task)
  | join | returned
deriving DecidableEq

/-- Where `stop` is, between two calls of it `idle`. -/
inductive StopPoint where
  | idle
  | interrupt (tasks : List Task)
  | wait
deriving DecidableEq

structure Client where
  wifi : CKernelWifi
  /-- `InterruptibleThread::number_thread` -/
  numberThread : Int
  threads : Task → Thread
  main : MainPoint
  stopping : StopPoint
  /-- What `genl_ctrl_resolve` returns: a negative value while the driver is absent. -/
  driver : Int

namespace Client

inductive Answer where
  | proceed
  | result (ok : Bool)
  | attempt (a : Attempt)
  | message (msg : NlMessage) (m : Unwritten) (oks : List Bool)
  | selected (s : CSelect.Selection) (m : Unwritten) (oks : List Bool)

inductive Label where
  | main (a : Answer)
  | thread (t : Task) (a : Answer)
  | stop
  | driver (id : Int)
  | interfaces (e : Interfaces.Event)

def init (heap : Nat → UInt8) (driver : Int) : Client where
  wifi := CKernelWifi.init heap
  numberThread := Task.all.length
  threads := fun _ => ⟨.notStarted, none⟩
  main := .created
  stopping := .idle
  driver := driver

/-! ## Small moves -/

def goto (c : Client) (t : Task) (p : Point) : Client :=
  { c with threads := Function.update c.threads t { c.threads t with point := p } }

def goMain (c : Client) (p : MainPoint) : Client := { c with main := p }

def withHwsim (c : Client) (h : Hwsim) : Client := { c with wifi := { c.wifi with hwsim := h } }

def withUplink (c : Client) (u : Uplink) : Client := { c with wifi := { c.wifi with uplink := u } }

def initialized (c : Client) (v : Bool) : Client :=
  c.withHwsim { c.wifi.hwsim with initialized := v }

/-- `m_family_id = genl_ctrl_resolve(...)` -/
def resolve (c : Client) : Client := c.withHwsim { c.wifi.hwsim with familyId := c.driver }

def connectedToServer (c : Client) (v : Bool) : Client :=
  c.withUplink { c.wifi.uplink with connectedToServer := v }

/-- `AsyncTask::dead` -/
def dead (c : Client) : Client := { c with numberThread := c.numberThread - 1 }

/-- `InterruptibleThread::interrupt` -/
def interrupt (c : Client) (t : Task) : Client :=
  { c with
    threads := Function.update c.threads t
      { c.threads t with interruptFlag := (c.threads t).interruptFlag.map fun _ => true } }

/-- `InterruptibleThread::start` -/
def startTask (c : Client) (t : Task) : Client :=
  { c with threads := Function.update c.threads t ⟨.interruptionPoint, some false⟩ }

def isInterrupted (c : Client) (t : Task) : Bool := (c.threads t).interruptFlag = some true

/-- The promise of `socket`: the descriptor it returns is not open. -/
def offers (c : Client) : Attempt → Bool
  | .noSocket => true
  | .refused d => !isOpen d c.wifi.uplink.kernel.log
  | .connected s => !isOpen s.descriptor c.wifi.uplink.kernel.log

/-! ## The loops of the tasks, from behind the interruption point on -/

def hwsimloop (libnl : Libnl) (c : Client) : Point → Answer → Option Client
  | .body, .proceed =>
    some (c.goto .hwsimloop (if c.wifi.hwsim.initialized then .wait else .interruptionPoint))
  -- `nl_recvmsgs_default` calls `process_messages` for each message it receives
  | .wait, .message msg m oks =>
    (c.wifi.processMessages libnl msg m.attrs m.around oks).map fun s => { c with wifi := s }
  | .wait, .proceed => some (c.goto .hwsimloop .interruptionPoint)
  | _, _ => none

def serverloop (libnl : Libnl) (c : Client) : Point → Answer → Option Client
  | .body, .proceed =>
    some (c.goto .serverloop
      (if c.wifi.hwsim.initialized && c.wifi.uplink.connectedToServer then .wait
      else .interruptionPoint))
  | .wait, .selected r m oks =>
    (c.wifi.recvFromServer libnl r m oks).map fun s =>
      ({ c with wifi := s }.goto .serverloop .interruptionPoint)
  | _, _ => none

def monitorloop (c : Client) : Point → Answer → Option Client
  | .body, .proceed =>
    if c.driver < 0 then some ((c.initialized false).goto .monitorloop .initNetlink)
    else some (c.goto .monitorloop .interruptionPoint)
  -- `init()`, whose failure ends the loop
  | .initNetlink, .result ok =>
    if ok then some (c.resolve.goto .monitorloop .waitDriver)
    else some (c.goto .monitorloop .ended)
  | .waitDriver, .proceed =>
    if 0 ≤ c.wifi.hwsim.familyId then some (c.goto .monitorloop .sendRegisterMsg)
    else if ¬ c.wifi.beingInitialized then some (c.goto .monitorloop .sendRegisterMsg)
    else if c.isInterrupted .monitorloop then some (c.dead.goto .monitorloop .sendRegisterMsg)
    else some c.resolve
  | .sendRegisterMsg, .result ok =>
    let c := c.withHwsim (c.wifi.hwsim.sendRegisterMsg ok)
    if ok then some ((c.initialized true).goto .monitorloop .interruptionPoint)
    else some (c.goto .monitorloop .ended)
  | _, _ => none

/-- What `get_winterface_infos` asks for comes with the events of the interfaces. -/
def winterfaceUpdateLoop (c : Client) : Point → Answer → Option Client
  | .body, .proceed => some (c.goto .winterfaceUpdateLoop .interruptionPoint)
  | _, _ => none

def connectionToServerLoop (c : Client) : Point → Answer → Option Client
  | .body, .proceed =>
    if c.wifi.uplink.connectedToServer then
      some (c.goto .connectionToServerLoop .interruptionPoint)
    else some ((c.withUplink c.wifi.uplink.close).goto .connectionToServerLoop .connect)
  | .connect, .attempt a =>
    if c.offers a then
      match c.wifi.uplink.connect a with
      | (ok, u) =>
        some ((c.withUplink u).goto .connectionToServerLoop
          (if ok then .announce else .interruptionPoint))
    else none
  | .announce, .proceed =>
    some ((c.connectedToServer true).goto .connectionToServerLoop .interruptionPoint)
  | _, _ => none

def loop (libnl : Libnl) (c : Client) : Task → Point → Answer → Option Client
  | .hwsimloop => c.hwsimloop libnl
  | .serverloop => c.serverloop libnl
  | .monitorloop => c.monitorloop
  | .winterfaceUpdateLoop => c.winterfaceUpdateLoop
  | .connectionToServerLoop => c.connectionToServerLoop

def stepThread (libnl : Libnl) (c : Client) (t : Task) (a : Answer) : Option Client :=
  match (c.threads t).point, a with
  | .interruptionPoint, .proceed =>
    if c.isInterrupted t then some (c.dead.goto t .ended) else some (c.goto t .body)
  | p, a => c.loop libnl t p a

/-! ## `start` and `stop` -/

def beingInitialized (c : Client) (v : Bool) : Client :=
  { c with wifi := { c.wifi with beingInitialized := v } }

def beingStarted (c : Client) (v : Bool) : Client :=
  { c with wifi := { c.wifi with beingStarted := v } }

def stepMain (c : Client) (a : Answer) : Option Client :=
  match c.main, a with
  | .created, .proceed =>
    some ((c.beingInitialized true).goMain
      (if c.wifi.hwsim.initialized then .initialized else .initNetlinkFirst))
  -- `init_first()`
  | .initNetlinkFirst, .result ok =>
    if ok then some (c.resolve.goMain .waitDriver) else some (c.goMain .returned)
  | .waitDriver, .proceed =>
    if 0 ≤ c.wifi.hwsim.familyId then some (c.goMain .sendRegisterMsg)
    else if ¬ c.wifi.beingInitialized then some (c.goMain .returned)
    else some c.resolve
  | .sendRegisterMsg, .result ok =>
    let c := c.withHwsim (c.wifi.hwsim.sendRegisterMsg ok)
    if ok then some ((c.initialized true).goMain .initialized) else some (c.goMain .returned)
  | .initialized, .proceed => some ((c.beingInitialized false).goMain .monitorWireless)
  | .monitorWireless, .result ok =>
    if ok then some ((c.beingStarted true).goMain .connect) else some (c.goMain .returned)
  | .connect, .attempt a =>
    if c.offers a then
      match c.wifi.uplink.connect a with
      | (ok, u) => some ((c.withUplink u).goMain (if ok then .announce else .retry))
    else none
  | .retry, .proceed =>
    if ¬ c.wifi.beingStarted then some (c.goMain .returned) else some (c.goMain .connect)
  | .announce, .proceed => some ((c.connectedToServer true).goMain (.startTasks Task.all))
  | .startTasks (t :: rest), .proceed => some ((c.startTask t).goMain (.startTasks rest))
  | .startTasks [], .proceed => some ((c.beingStarted false).goMain .join)
  | .join, .proceed =>
    if ∀ t ∈ Task.all, (c.threads t).point = .ended then some (c.goMain .returned) else none
  | _, _ => none

/-- The tasks in the order in which `stop` interrupts them. -/
def interruptOrder : List Task :=
  [.connectionToServerLoop, .serverloop, .hwsimloop, .monitorloop, .winterfaceUpdateLoop]

def stepStop (c : Client) : Option Client :=
  match c.stopping with
  | .idle =>
    if c.wifi.beingInitialized then some (c.beingInitialized false)
    else if c.wifi.beingStarted then some (c.beingStarted false)
    else
      let c := if c.wifi.uplink.connectedToServer then c.withUplink c.wifi.uplink.close else c
      some { c with stopping := .interrupt interruptOrder }
  | .interrupt (t :: rest) => some { c.interrupt t with stopping := .interrupt rest }
  | .interrupt [] => some { c with stopping := .wait }
  -- `all_thread_interrupted()`
  | .wait => if c.numberThread = 0 then some { c with stopping := .idle } else none

def step (libnl : Libnl) (c : Client) : Label → Option Client
  | .main a => c.stepMain a
  | .thread t a => c.stepThread libnl t a
  | .stop => c.stepStop
  | .driver id => some { c with driver := id }
  | .interfaces e =>
    some { c with wifi := { c.wifi with interfaces := c.wifi.interfaces.handle e } }

end Client

end Vwifi
