import EspS31.Native.Queue

/-!
# FreeRTOS event groups

The event groups of the radio payload (`s31_rtos_event.c`): a set of bits under
one context, with the locked sections of its three calls.
-/

namespace EspS31.Rtos

open SyncProtocol

/-- `struct s31_event_group`. -/
structure S31EventGroup where
  bits : UInt32
  waitContext : Option BridgeHandle
deriving DecidableEq, Repr

/-- `malloc` is whether the allocation succeeds, `ctx` what
    `s31_linux_sync_create` returns. -/
def xEventGroupCreate (malloc : Bool) (ctx : Option BridgeHandle) : Option S31EventGroup :=
  if malloc ∧ ctx.isSome then some { bits := 0, waitContext := ctx } else none

/-- `all` is the flag `S31_EG_FLAG_ALL_BITS`. -/
def s31EgMatch (held want : UInt32) (all : Bool) : Bool :=
  if all then (held &&& want) == want else (held &&& want) != 0

/-- The test at the top of the wait loop and again after the deadline: the bits
    found, and their clearing when they match. -/
def S31EventGroup.consume (g : S31EventGroup) (bits : UInt32) (clearOnExit waitAllBits : Bool) :
    S31EventGroup :=
  if s31EgMatch g.bits bits waitAllBits ∧ clearOnExit then { g with bits := g.bits &&& ~~~bits }
  else g

/-- The locked section of the wait loop. -/
def waitBitsSection (bits : UInt32) (clearOnExit waitAllBits : Bool) (g : S31EventGroup) :
    S31EventGroup × Outcome Ret :=
  if s31EgMatch g.bits bits waitAllBits then
    (g.consume bits clearOnExit waitAllBits, .done (.value g.bits) false)
  else
    (g, .unmet (.value g.bits))

/-- The locked section after a wait that timed out or failed. -/
def waitBitsRecheck (bits : UInt32) (clearOnExit waitAllBits : Bool) (g : S31EventGroup) :
    S31EventGroup × Ret :=
  (g.consume bits clearOnExit waitAllBits, .value g.bits)

section

variable {κ : Type}

/-- Sets bits and wakes all that wait for some. -/
def xEventGroupSetBits (ctx : κ) (bits : UInt32) (g : S31EventGroup) :
    Ret ⊕ SyncCall κ S31EventGroup Ret TickType :=
  if g.waitContext.isSome then
    .inr (.once ctx fun g => ({ g with bits := g.bits ||| bits }, .value (g.bits ||| bits), true))
  else .inl (.value 0)

/-- Clears bits and returns what was there. -/
def xEventGroupClearBits (ctx : κ) (bits : UInt32) (g : S31EventGroup) :
    Ret ⊕ SyncCall κ S31EventGroup Ret TickType :=
  if g.waitContext.isSome then
    .inr (.once ctx fun g => ({ g with bits := g.bits &&& ~~~bits }, .value g.bits, false))
  else .inl (.value 0)

/-- In an ISR, or with no time left, the call returns the bits it has seen;
    after a failed wait it looks once more. -/
def xEventGroupWaitBits (th : Thread) (ctx : κ) (bits : UInt32) (clearOnExit waitAllBits : Bool)
    (timeout : TickType) (g : S31EventGroup) : Ret ⊕ SyncCall κ S31EventGroup Ret TickType :=
  if g.waitContext.isSome then
    .inr {
      ctx := ctx
      body := waitBitsSection bits clearOnExit waitAllBits
      wait := some {
        patience := fun start now => if th.inIsr then none else queuePatience timeout start now
        early := none
        late := some (waitBitsRecheck bits clearOnExit waitAllBits) } }
  else .inl (.value 0)

end

end EspS31.Rtos
