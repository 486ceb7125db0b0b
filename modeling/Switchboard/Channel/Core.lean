import Switchboard.Assoc

/-!
# Channel cores

What every channel keeps, whatever carries its messages: the handler of each service, and the hooks
to run when the channel is closed. Closing happens once. It empties both tables for good and hands
out the hooks in the order in which they were added; a hook added later is not kept and is to be run
at once.

Keys of hooks are handed out in increasing order and never again.
-/

namespace Switchboard

structure ChannelCore (Handler Hook : Type) where
  disposed : Bool := false
  services : List (String × Handler) := []
  hooks : List (Nat × Hook) := []
  nextKey : Nat := 0
deriving Inhabited

namespace ChannelCore

variable {Handler Hook : Type}

/-- Install the handler of a service in place of any earlier one; a closed channel takes none. -/
def register (c : ChannelCore Handler Hook) (service : String) (handler : Handler) :
    ChannelCore Handler Hook :=
  if c.disposed then c else { c with services := Assoc.set service handler c.services }

def unregister (c : ChannelCore Handler Hook) (service : String) : ChannelCore Handler Hook :=
  { c with services := Assoc.erase service c.services }

def handler? (c : ChannelCore Handler Hook) (service : String) : Option Handler :=
  if c.disposed then none else c.services.lookup service

/-- Keep a hook under the next key. A closed channel keeps nothing: the caller runs the hook now. -/
def addHook (c : ChannelCore Handler Hook) (hook : Hook) : ChannelCore Handler Hook :=
  if c.disposed then { c with nextKey := c.nextKey + 1 }
  else { c with nextKey := c.nextKey + 1, hooks := c.hooks ++ [(c.nextKey, hook)] }

def removeHook (c : ChannelCore Handler Hook) (key : Nat) : ChannelCore Handler Hook :=
  { c with hooks := Assoc.erase key c.hooks }

def dispose (c : ChannelCore Handler Hook) : Option (ChannelCore Handler Hook × List Hook) :=
  if c.disposed then none
  else some ({ c with disposed := true, services := [], hooks := [] }, c.hooks.map Prod.snd)

@[simp] theorem disposed_register (c : ChannelCore Handler Hook) (service : String)
    (handler : Handler) : (c.register service handler).disposed = c.disposed := by
  unfold register
  split <;> rfl

@[simp] theorem disposed_addHook (c : ChannelCore Handler Hook) (hook : Hook) :
    (c.addHook hook).disposed = c.disposed := by
  unfold addHook
  split <;> rfl

end ChannelCore

end Switchboard
