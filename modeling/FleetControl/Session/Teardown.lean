import FleetControl.Session

/-!
# The end of a session

`Session.destroy` tears down every container and then every robot, each group in
the order of its names, and comes to its end whatever they raise.  Each fault is
logged; the first one that shows a mismatch of registrations is raised when the
session is empty.

`Session.close` is the end of a session that nobody has destroyed: it destroys
it and only logs what that raises.
-/

namespace FleetControl
namespace Session

/-- Tears down the endpoint of a robot or container. -/
def destroyEntry (entry : Text × EndpointId) : Act Session Unit :=
  onFleet (Fleet.destroyEndpoint entry.2)

/-- Logs that a robot or container could not be torn down. -/
def reportEntry (what : String) (entry : Text × EndpointId) (fault : Fault) :
    Act Session Unit :=
  note .error
    (text "[User] Error destroying " ++ text what ++ text " " ++ entry.1.quoted
      ++ text ": " ++ fault.message)

/-- The session without interfaces, containers and robots. -/
def emptied (session : Session) : Session :=
  let fleet :=
    session.interfaces.foldl (fun fleet entry => fleet.dropInterface entry.2)
      session.fleet
  let fleet :=
    session.containers.foldl (fun fleet entry => fleet.dropEndpoint entry.2)
      fleet
  let fleet :=
    session.robots.foldl (fun fleet entry => fleet.dropEndpoint entry.2) fleet
  { session with
    robots := []
    containers := []
    interfaces := []
    destroyed := true
    fleet := fleet }

/-- Destroys the session. -/
def destroy : Act Session Unit := do
  ensureActive
  let containerFaults ← Act.sweep destroyEntry (reportEntry "container")
    (← get).containers
  let robotFaults ← Act.sweep destroyEntry (reportEntry "robot") (← get).robots
  modify emptied
  note .info ((← get).remark (text "session destroyed"))
  Act.raiseStructural (containerFaults ++ robotFaults)

/-- The session after its end, which destroys it unless that is done already. -/
def close (session : Session) : Session :=
  if session.destroyed then session
  else match Act.run destroy session with
    | (.ok _, session) => session
    | (.error fault, session) =>
      { session with
        fleet := session.fleet.log .error
          (session.remark (text "error during session teardown: "
            ++ fault.message)) }

end Session
end FleetControl
