import FleetControl.Proofs.Session.Step

/-!
# What is asked about one container

The connected flag, the computation graph and the interfaces of a container are
the container's own affair: `Ask.isLocal`.  What such an ask comes to is decided
by the state alone.  `Session.verdict` is the answer, `Session.forwarded` the
commands that the delegate accepts on the way, and `Session.settled` what the
session holds afterwards, whatever the interfaces and the delegate say.

An ask is about one endpoint, `Holdings.place?`, and about at most one tag of an
interface, `Ask.interfaceTag?`.  Other endpoints and the interfaces under other
tags stay as they are.
-/

namespace FleetControl

namespace Ask

/-- The flag, the graph and the interfaces of a container concern no
other one. -/
def isLocal : Ask → Bool
  | .setConnected _ _ | .graph _ _ | .addInterface _ _ _ | .removeInterface _ =>
    true
  | _ => false

/-- The tag of the interface that is asked for. -/
def interfaceTag? : Ask → Option Text
  | .addInterface _ tag _ | .removeInterface tag => some tag
  | _ => none

end Ask

namespace Holdings

/-- The endpoint of the container that an ask is about, if there is one.  An
interface that is to be removed is on its container. -/
def place? (h : Holdings) : Ask → Option EndpointId
  | .setConnected tag _ => h.containers.get? tag
  | .graph container _ => h.containers.get? container
  | .addInterface container _ _ => h.containers.get? container
  | .removeInterface tag =>
    (h.interfaces.get? tag).map fun i => (h.interface i).endpoint
  | _ => none

/-- The interface under a tag. -/
def interfaceUnder (h : Holdings) (tag : Text) : Option Interface :=
  (h.interfaces.get? tag).map h.interface

/-- What is held once an ask about one container has been admitted. -/
def carried (h : Holdings) (control : Option ControlId) : Ask → Holdings
  | .setConnected tag connected =>
    match h.containers.get? tag with
    | some e => h.withFlag e connected
    | none => h
  | .addInterface container tag address =>
    match h.containers.get? container, control with
    | some e, some c => h.withInterface tag e address c
    | _, _ => h
  | .removeInterface tag =>
    match h.interfaces.get? tag with
    | some i =>
      h.withoutInterface tag i (h.interface i).endpoint
        ((h.interface i).behaviour.address?.getD [])
    | none => h
  | _ => h

end Holdings

namespace Session

variable {s t : Session} {ask : Ask} {fault : Fault}

/-- The fault that those outside raise at what the session has admitted. -/
def protest? (s : Session) : Ask → Option Fault
  | .setConnected tag connected => s.fleet.listener.objects tag connected
  | .graph _ order =>
    match s.containerControl, order.command with
    | some c, .ok command => s.fleet.objection? c command
    | _, _ => none
  | _ => none

/-- The answer to an ask about one container. -/
def verdict (s : Session) (ask : Ask) : Except Fault (List (Text × Json)) :=
  match (s.fault? ask).or (s.protest? ask) with
  | some fault => .error fault
  | none => .ok []

/-- The command that an admitted ask about one container comes to. -/
def orders (s : Session) : Ask → List (ControlId × Command)
  | .graph _ order =>
    match s.containerControl, order.command with
    | some c, .ok command => [(c, command)]
    | _, _ => []
  | _ => []

/-- The commands that the delegate accepts on the way. -/
def forwarded (s : Session) (ask : Ask) : List (ControlId × Command) :=
  match (s.fault? ask).or (s.protest? ask) with
  | some _ => []
  | none => s.orders ask

/-- What the session holds after an ask about one container. -/
def settled (s : Session) (ask : Ask) : Holdings :=
  match s.fault? ask with
  | some _ => s.holdings
  | none => s.holdings.carried s.containerControl ask

/-- An ask about one container has been answered and settled. -/
structure Settles (s : Session) (ask : Ask)
    (result : Except Fault (List (Text × Json))) (t : Session) : Prop where
  result_eq : result = s.verdict ask
  continues : s.Continues t (s.forwarded ask)
  holdings_eq : t.holdings = s.settled ask

namespace Settles

theorem refused (hfault : s.fault? ask = some fault) :
    Settles s ask (.error fault) s where
  result_eq := by simp [verdict, hfault]
  continues := by
    simp only [forwarded, hfault, Option.some_or]
    exact .refl s
  holdings_eq := by simp only [settled, hfault]

theorem protested (hfault : s.fault? ask = none)
    (hprotest : s.protest? ask = some fault) (hcontinues : s.Continues t [])
    (hholdings : t.holdings = s.holdings.carried s.containerControl ask) :
    Settles s ask (.error fault) t where
  result_eq := by simp [verdict, hfault, hprotest]
  continues := by
    simp only [forwarded, hfault, hprotest, Option.none_or]
    exact hcontinues
  holdings_eq := by simp only [settled, hfault, hholdings]

theorem done (hfault : s.fault? ask = none) (hprotest : s.protest? ask = none)
    (hcontinues : s.Continues t (s.orders ask))
    (hholdings : t.holdings = s.holdings.carried s.containerControl ask) :
    Settles s ask (.ok []) t where
  result_eq := by simp [verdict, hfault, hprotest]
  continues := by
    simp only [forwarded, hfault, hprotest, Option.none_or]
    exact hcontinues
  holdings_eq := by simp only [settled, hfault, hholdings]

end Settles

end Session
end FleetControl
