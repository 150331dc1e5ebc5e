import FleetControl.Proofs.Dict
import FleetControl.Request

/-!
# What requests and answers say

The parts of an answer that its reader looks at: the status, the class of the
error and the operation that has been carried out.  With the fields of the
request, they tell which entries a journal gets.
-/

namespace FleetControl
namespace Json

/-- The value under a key of an object. -/
def member? (key : String) : Json → Option Json
  | .object entries => Dict.get? (text key) entries
  | _ => none

/-- The status that an answer gives. -/
def status? (answer : Json) : Option Text :=
  (answer.member? "status").bind text?

/-- The class of error that an answer gives. -/
def errorClass? (answer : Json) : Option Text :=
  (answer.member? "error").bind text?

/-- The name of the operation that an answer gives. -/
def op? (answer : Json) : Option Text :=
  (answer.member? "op").bind text?

/-- The text under a key of an object; what is no text counts as empty. -/
def textAt (value : Json) (key : String) : Text :=
  ((value.member? key).bind text?).getD []

end Json

/-- The journal entries of a request whose operation has been carried out: the
name of a command and the thing that the command is about. -/
def Operation.entries (operation : Operation) (request : Json) :
    List (Text × Text) :=
  match operation with
  | .addRobot => [(text "create_robot", request.textAt "robot_id")]
  | .removeRobot => [(text "destroy_robot", request.textAt "robot_id")]
  | .addContainer => [(text "create_container", request.textAt "tag")]
  | .removeContainer => [(text "destroy_container", request.textAt "tag")]
  | .addNode => [(text "add_node", request.textAt "tag")]
  | .removeNode => [(text "remove_node", request.textAt "tag")]
  | .addParameter => [(text "add_parameter", request.textAt "name")]
  | .removeParameter => [(text "remove_parameter", request.textAt "name")]
  | .setContainerConnected | .addInterface | .removeInterface => []

/-- The journal entries of a request with its answer; only an answer that says
that all is well has any. -/
def Json.entries (request answer : Json) : List (Text × Text) :=
  if answer.status? = some (text "ok") then
    match answer.op?.bind Operation.ofName? with
    | some operation => operation.entries request
    | none => []
  else []

@[simp]
theorem Operation.ofName?_name (operation : Operation) :
    ofName? operation.name = some operation := by
  cases operation <;> decide

namespace Request

open Json

theorem textAt_of_field {entries : Dict Json} {key : String} {t : Text}
    (h : field entries key = .ok t) : (Json.object entries).textAt key = t := by
  unfold field at h
  split at h
  · next found hfound =>
    cases h
    have hmember : ((Json.object entries).member? key).bind Json.text? =
        some t := hfound
    rw [textAt, hmember]
    rfl
  · cases h

theorem get?_ofList_append_self (entries : List (Text × Json)) (key : Text)
    (value : Json) :
    (Dict.ofList (entries ++ [(key, value)])).get? key = some value := by
  rw [Dict.ofList, List.foldl_append]
  exact Dict.get?_insert_self key value _

theorem get?_ofList_append_of_ne (entries : List (Text × Json))
    {key other : Text} (h : other ≠ key) (value : Json) :
    (Dict.ofList (entries ++ [(key, value)])).get? other =
      (Dict.ofList entries).get? other := by
  rw [Dict.ofList, List.foldl_append]
  exact Dict.get?_insert_of_ne h value _

/-- An answer to a request that has been carried out holds its results, the
status and the operation. -/
theorem member?_success (operation : Operation) (results : List (Text × Json))
    (key : String) :
    (success operation results).member? key =
      if text key = text "op" then some (.string operation.name)
      else if text key = text "status" then some (.str "ok")
      else (Dict.ofList results).get? (text key) := by
  have hsplit :
      results ++
        [(text "status", Json.str "ok"), (text "op", .string operation.name)] =
      (results ++ [(text "status", .str "ok")])
        ++ [(text "op", .string operation.name)] := by simp
  simp only [success, Json.ofEntries, member?, hsplit]
  by_cases hop : text key = text "op"
  · rw [if_pos hop, hop]
    exact get?_ofList_append_self _ _ _
  · rw [if_neg hop, get?_ofList_append_of_ne _ hop]
    by_cases hstatus : text key = text "status"
    · rw [if_pos hstatus, hstatus]
      exact get?_ofList_append_self _ _ _
    · rw [if_neg hstatus]
      exact get?_ofList_append_of_ne _ hstatus _

@[simp]
theorem status?_success (operation : Operation) (results : List (Text × Json)) :
    (success operation results).status? = some (text "ok") := by
  have hne : text "status" ≠ text "op" := by decide
  rw [status?, member?_success, if_neg hne, if_pos rfl]
  rfl

@[simp]
theorem op?_success (operation : Operation) (results : List (Text × Json)) :
    (success operation results).op? = some operation.name := by
  rw [op?, member?_success, if_pos rfl]
  rfl

/-- A request that has been carried out has no class of error, unless its
results are called so. -/
theorem errorClass?_success (operation : Operation)
    {results : List (Text × Json)}
    (h : (Dict.ofList results).get? (text "error") = none) :
    (success operation results).errorClass? = none := by
  have hop : text "error" ≠ text "op" := by decide
  have hstatus : text "error" ≠ text "status" := by decide
  rw [errorClass?, member?_success, if_neg hop, if_neg hstatus, h]
  rfl

@[simp]
theorem status?_refusal (error : String) (message : Text) :
    (refusal error message).status? = some (text "error") := by
  have hmessage : text "status" ≠ text "message" := by decide
  have herror : text "status" ≠ text "error" := by decide
  simp [refusal, Json.ofEntries, status?, member?, Dict.ofList,
    Dict.get?_insert_of_ne hmessage, Dict.get?_insert_of_ne herror,
    Dict.get?_insert_self, Json.str, text?]

@[simp]
theorem errorClass?_refusal (error : String) (message : Text) :
    (refusal error message).errorClass? = some (text error) := by
  have hmessage : text "error" ≠ text "message" := by decide
  simp [refusal, Json.ofEntries, errorClass?, member?, Dict.ofList,
    Dict.get?_insert_of_ne hmessage, Dict.get?_insert_self, Json.str, text?]

theorem entries_success (request : Json) (operation : Operation)
    (results : List (Text × Json)) :
    request.entries (success operation results) =
      operation.entries request := by
  simp [Json.entries]

theorem entries_refusal (request : Json) (error : String) (message : Text) :
    request.entries (refusal error message) = [] := by
  have hne : text "error" ≠ text "ok" := by decide
  simp [Json.entries, hne]

end Request
end FleetControl
