import Mathlib.Logic.Function.Basic
import Vwifi.Types
import Vwifi.Lib.Segmented

/-!
# The kernel as the programs see it

What `recv` will deliver and how much each `send` will take is decided by the
environment when a connection is accepted; what has happened is the log. The
log also records, with `Act.use`, each time a handler looks at a local variable
that `recv` filled: not a system call, but what the claims about unreceived
bytes are about.
-/

namespace Vwifi

set_option autoImplicit false

inductive Act where
  | accept (descriptor : TDescriptor)
  | recv (descriptor : TDescriptor) (asked got : Nat)
  | send (descriptor : TDescriptor) (data : List UInt8) (taken : Nat)
  | close (descriptor : TDescriptor)
  | use (needed received : Nat)
deriving DecidableEq

/-- A connection the kernel hands to `accept`. An empty segment of `inbox` is a
`recv` that fails; after the last segment every `recv` fails. `room` bounds what
each successive `send` takes; after its end every `send` fails. -/
structure Incoming where
  descriptor : TDescriptor
  inbox : List (List UInt8)
  room : List Nat

structure Kernel where
  inbox : TDescriptor → List (List UInt8)
  room : TDescriptor → List Nat
  /-- The values the next calls of `rand` return. -/
  rands : List Nat
  /-- What a block of memory holds when `new` returns it. -/
  heap : Nat → UInt8
  log : List Act

namespace Kernel

def record (k : Kernel) (acts : List Act) : Kernel := { k with log := k.log ++ acts }

def accept (k : Kernel) (c : Incoming) : Kernel :=
  { k with
    inbox := Function.update k.inbox c.descriptor c.inbox
    room := Function.update k.room c.descriptor c.room
    log := k.log ++ [.accept c.descriptor] }

/-- The bytes `recv` stores, none when it returns zero or a negative value. -/
def recv (k : Kernel) (d : TDescriptor) (size : Nat) : List UInt8 × Kernel :=
  let delivery := Segmented.deliver size (k.inbox d)
  (delivery.1,
    { k with
      inbox := Function.update k.inbox d delivery.2
      log := k.log ++ [.recv d size delivery.1.length] })

/-- How many bytes `send` takes; zero also stands for a negative return value. -/
def send (k : Kernel) (d : TDescriptor) (data : List UInt8) : Nat × Kernel :=
  let taken := min ((k.room d).headD 0) data.length
  (taken,
    { k with
      room := Function.update k.room d (k.room d).tail
      log := k.log ++ [.send d data taken] })

def close (k : Kernel) (d : TDescriptor) : Kernel := k.record [.close d]

def rand (k : Kernel) : Nat × Kernel := (k.rands.headD 0, { k with rands := k.rands.tail })

end Kernel

/-! ## What a log says about a descriptor -/

def accepts (d : TDescriptor) (log : List Act) : Nat := log.count (.accept d)

def closes (d : TDescriptor) (log : List Act) : Nat := log.count (.close d)

def openStep (d : TDescriptor) (isOpen : Bool) : Act → Bool
  | .accept d' => if d' = d then true else isOpen
  | .close d' => if d' = d then false else isOpen
  | _ => isOpen

/-- Accepted and not closed since. -/
def isOpen (d : TDescriptor) (log : List Act) : Bool := log.foldl (openStep d) false

def sentStep (d : TDescriptor) (sent : List UInt8) : Act → List UInt8
  | .accept d' => if d' = d then [] else sent
  | .send d' data taken => if d' = d then sent ++ data.take taken else sent
  | _ => sent

/-- The bytes sent on the connection `d` stands for since it was accepted. -/
def sentOn (d : TDescriptor) (log : List Act) : List UInt8 := log.foldl (sentStep d) []

@[simp] theorem accepts_append (d : TDescriptor) (l m : List Act) :
    accepts d (l ++ m) = accepts d l + accepts d m := List.count_append

@[simp] theorem closes_append (d : TDescriptor) (l m : List Act) :
    closes d (l ++ m) = closes d l + closes d m := List.count_append

theorem isOpen_append (d : TDescriptor) (l m : List Act) :
    isOpen d (l ++ m) = m.foldl (openStep d) (isOpen d l) := List.foldl_append

theorem sentOn_append (d : TDescriptor) (l m : List Act) :
    sentOn d (l ++ m) = m.foldl (sentStep d) (sentOn d l) := List.foldl_append

/-- Acts that neither open, close nor write: `recv` calls and uses of variables. -/
def Act.isRead : Act → Bool
  | .recv .. => true
  | .use .. => true
  | _ => false

/-- Acts that neither open nor close a descriptor. -/
def Act.isTransfer : Act → Bool
  | .accept _ => false
  | .close _ => false
  | _ => true

/-- The calls of `recv` on `d`. -/
def Act.isReadOf (d : TDescriptor) : Act → Bool
  | .recv d' .. => d' = d
  | _ => false

/-- The descriptor a call of `recv` reads. -/
def Act.source : Act → Option TDescriptor
  | .recv d _ _ => some d
  | _ => none

theorem Act.isRead_of_isReadOf {d : TDescriptor} {a : Act} (h : a.isReadOf d) : a.isRead := by
  cases a <;> simp_all [Act.isReadOf, Act.isRead]

theorem Act.isTransfer_of_isRead {a : Act} (h : a.isRead) : a.isTransfer := by
  cases a <;> simp_all [Act.isRead, Act.isTransfer]

section Transfer

variable {m : List Act}

theorem accepts_transfer (d : TDescriptor) (h : ∀ a ∈ m, a.isTransfer) : accepts d m = 0 := by
  apply List.count_eq_zero.mpr
  intro hm
  exact absurd (h _ hm) (by simp [Act.isTransfer])

theorem closes_transfer (d : TDescriptor) (h : ∀ a ∈ m, a.isTransfer) : closes d m = 0 := by
  apply List.count_eq_zero.mpr
  intro hm
  exact absurd (h _ hm) (by simp [Act.isTransfer])

theorem isOpen_transfer (d : TDescriptor) (l : List Act) (h : ∀ a ∈ m, a.isTransfer) :
    isOpen d (l ++ m) = isOpen d l := by
  rw [isOpen_append]
  generalize isOpen d l = b
  induction m with
  | nil => rfl
  | cons a m ih =>
    have ha := h a List.mem_cons_self
    have hstep : openStep d b a = b := by
      cases a <;> simp_all [openStep, Act.isTransfer]
    rw [List.foldl_cons, hstep]
    exact ih fun a ha => h a (List.mem_cons_of_mem _ ha)

theorem sentOn_reads (d : TDescriptor) (l : List Act) (h : ∀ a ∈ m, a.isRead) :
    sentOn d (l ++ m) = sentOn d l := by
  rw [sentOn_append]
  generalize sentOn d l = s
  induction m with
  | nil => rfl
  | cons a m ih =>
    have ha := h a List.mem_cons_self
    have hstep : sentStep d s a = s := by
      cases a <;> simp_all [sentStep, Act.isRead]
    rw [List.foldl_cons, hstep]
    exact ih fun a ha => h a (List.mem_cons_of_mem _ ha)

end Transfer

end Vwifi
