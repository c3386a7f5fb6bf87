import Anviq.Proxy.Forwarded
import Anviq.Proxy.Lists
import Anviq.Trust.Layer

/-! # Quarantine is enforced

A tool that the control plane has in quarantine when the poller fetches the list is refused by the
proxy from when the list is swapped in until an operator approves the tool; and a tool is only
refused for its quarantine when a call of the control plane put it there.
-/

namespace Trust

open Proxy (CallParams Forwarded Goroutine LetThrough Report Shows Surroundings SystemLabel Tool
  emitTurn quarantineEvent)
open Control (ControlService Honest ToolKey)

variable {Schema Call : Type} [DecidableEq Call] {deployment : Deployment Schema Call}
  {labels : List (Label Schema Call)} {label : Label Schema Call} {layer next : Layer Schema Call}
  {server tool : String}

/-! ## Until an approval -/

/-- The step approves no hash of the tool. -/
def Label.Spares (key : ToolKey) (label : Label Schema Call) : Prop :=
  ∀ event hash, label = .control event → event.approval? ≠ some (key, hash)

omit [DecidableEq Call] in
/-- The list is sorted; it has the tools in quarantine. -/
theorem mem_quarantineList {service : ControlService Call} {key : ToolKey} :
    key ∈ service.quarantineList ↔ key ∈ service.quarantine := List.mem_insertionSort _

/-- The control plane has the tool in quarantine, and what has been fetched says so. -/
structure Held (key : ToolKey) (layer : Layer Schema Call) : Prop where
  quarantined : key ∈ layer.control.quarantine
  fetched : ∀ keys, layer.fetched = some keys → key ∈ keys

omit [DecidableEq Call] in
/-- The poller fetches the list. -/
theorem Held.fetch {key : ToolKey} (quarantined : key ∈ layer.control.quarantine) :
    Held key { layer with fetched := some layer.control.quarantineList } where
  quarantined := quarantined
  fetched := by
    rintro _ ⟨⟩
    exact mem_quarantineList.mpr quarantined

/-- The control plane keeps the tool in quarantine, and so says whatever is fetched. -/
theorem Held.step (held : Held (server, tool) layer)
    (honest : Honest deployment.settings deployment.requests layer.control)
    (step : Step deployment layer label next) (spares : label.Spares (server, tool)) :
    Held (server, tool) next := by
  cases step with
  | proxy _ _ => exact ⟨held.quarantined, held.fetched⟩
  | control _ handled =>
      refine ⟨(Control.quarantine_step honest handled).mpr ⟨?_, Or.inl held.quarantined⟩,
        held.fetched⟩
      exact fun hash => spares _ hash rfl
  | fetch _ => exact .fetch held.quarantined
  | lose => exact ⟨held.quarantined, fun _ absent => by cases absent⟩
  | replace _ => exact ⟨held.quarantined, fun _ absent => by cases absent⟩

/-- The proxy refuses the tool as well. -/
structure Enforced (key : ToolKey) (layer : Layer Schema Call) : Prop extends Held key layer where
  listed : layer.quarantine.contains key.1 key.2 = true

omit [DecidableEq Call] in
/-- What has been fetched is swapped in. -/
theorem Held.replace (held : Held (server, tool) layer) {keys : List ToolKey}
    (fetched : layer.fetched = some keys) :
    Enforced (server, tool)
      { layer with quarantine := .replace (keys.map entryOf), fetched := none } where
  quarantined := held.quarantined
  fetched := fun _ absent => by cases absent
  listed := by
    rw [Proxy.QuarantineSet.contains_replace]
    exact ⟨entryOf (server, tool), List.mem_map_of_mem (held.fetched keys fetched), rfl⟩

/-- The proxy goes on refusing the tool. -/
theorem Enforced.step (enforced : Enforced (server, tool) layer)
    (honest : Honest deployment.settings deployment.requests layer.control)
    (step : Step deployment layer label next) (spares : label.Spares (server, tool)) :
    Enforced (server, tool) next := by
  have held := enforced.toHeld.step honest step spares
  cases step with
  | replace fetched => exact enforced.toHeld.replace fetched
  | proxy _ _ => exact { held with listed := enforced.listed }
  | control _ _ => exact { held with listed := enforced.listed }
  | fetch _ => exact { held with listed := enforced.listed }
  | lose => exact { held with listed := enforced.listed }

/-! ## What the proxy refuses -/

/-- A turn reads that the tool is in quarantine. -/
theorem Enforced.reads (enforced : Enforced (server, tool) layer) {id : String}
    {goroutine : Goroutine Schema} {around : Surroundings Schema}
    (step : Step deployment layer (.proxy (.turn id goroutine around)) next) :
    around.quarantined server tool = true := by
  cases step with
  | proxy reads _ =>
      rw [reads.1]
      exact enforced.listed

/-- A loop that has passed the tool had passed it before the step. -/
theorem Enforced.passed (enforced : Enforced (server, tool) layer) (named : tool ≠ "")
    (step : Step deployment layer label next) {running : String × Goroutine Schema} {body : String}
    (among : running ∈ next.proxy.goroutines) (passed : running.2.Passed server tool body) :
    ∃ earlier, (running.1, earlier) ∈ layer.proxy.goroutines ∧
      earlier.Passed server tool body := by
  cases step with
  | @proxy label _ reads step =>
      rcases Proxy.step_goroutines step among with
        old | ⟨from', agent, text, arrived⟩ | ⟨goroutine, around, rfl, listed, goes⟩
      · exact ⟨running.2, old, passed⟩
      · rw [arrived] at passed
        exact passed.elim
      · have quarantined := enforced.reads (.proxy reads step)
        exact ⟨goroutine, listed, Proxy.turn_passed named quarantined goes passed⟩
  | control _ _ => exact ⟨running.2, among, passed⟩
  | fetch _ => exact ⟨running.2, among, passed⟩
  | lose => exact ⟨running.2, among, passed⟩
  | replace _ => exact ⟨running.2, among, passed⟩

/-- As long as no operator approves the tool, the proxy goes on refusing it. -/
theorem Enforced.run {swapped : Layer Schema Call} {earlier later : List (Label Schema Call)}
    (run : (machine deployment).Run earlier swapped) (enforced : Enforced (server, tool) swapped)
    (rest : ((machine deployment).onwards swapped).Run later layer)
    (spares : ∀ label ∈ later, label.Spares (server, tool)) : Enforced (server, tool) layer :=
  Machine.Run.kept (fun _ _ _ _ run enforced spares step =>
    enforced.step (Control.run_honest (run_control run)) step spares) run enforced rest spares

/-- Every turn after the swap reads that the tool is in quarantine. -/
theorem Enforced.turns {swapped : Layer Schema Call} {earlier later : List (Label Schema Call)}
    (run : (machine deployment).Run earlier swapped) (enforced : Enforced (server, tool) swapped)
    (rest : ((machine deployment).onwards swapped).Run later layer)
    (spares : ∀ label ∈ later, label.Spares (server, tool)) {actor : String}
    {goroutine : Goroutine Schema} {around : Surroundings Schema}
    (turn : .turn actor goroutine around ∈ later.filterMap Label.proxy?) :
    around.quarantined server tool = true := by
  rcases List.mem_filterMap.mp turn with ⟨label, present, shown⟩
  rcases List.append_of_mem present with ⟨front, back, rfl⟩
  rcases rest.middle with ⟨state, next, before, step⟩
  have held := enforced.run run before fun label present =>
    spares label (List.mem_append_left _ present)
  cases label with
  | proxy label =>
      cases shown
      exact held.reads step
  | _ => cases shown

/-- The definition of a tool that is known by its description. -/
def readTool (description : String) : Tool :=
  [("description", .str description), ("inputSchema", .obj []), ("name", .str "read")]

/-- A tool whose description has changed. -/
def changedTool : Report where
  server := "files"
  tool := "read"
  revision := 1
  oldHash := "old"
  newHash := "new"
  oldDef := readTool "old"
  newDef := readTool "new"

/-- A process that reports the change to a control plane that finds it suspicious. -/
def rollout : Deployment Unit Unit where
  gateway := Proxy.System.describing
  capacity := 8
  settings := Control.drill
  posts := fun _ => ("session", changedTool)
  requests := fun _ =>
    { server := "files", tool := "read", sessionId := "session", oldHash := "old", newHash := "new"
      oldDef := [("description", .str "old"), ("inputSchema", .obj []), ("name", .str "read")]
      newDef := [("description", .str "new"), ("inputSchema", .obj []), ("name", .str "read")] }
  parsed := fun _ => rfl

/-- What the proxy reads while a tool has this description. -/
def listing (description : String) : Surroundings Unit where
  quarantined := fun _ _ => false
  compiled := fun _ _ => .ok ()
  upstream := .ok ("\x7b\"result\":\x7b\"tools\":[\x7b\"name\":\"read\",\"description\":\"" ++
    description ++ "\",\"inputSchema\":\x7b\x7d\x7d]\x7d\x7d")

/-- A tool is listed, and listed again with another description, and the change is analysed. -/
def suspicion : List (Move Unit Unit) :=
  let list := "\x7b\"method\":\"tools/list\"\x7d"
  [.arrive "session" "files" "agent" list, .turn 0 (listing "") none, .emit "session",
    .turn 0 (listing "old") none, .turn 0 (listing "") none, .emit "session",
    .turn 0 (listing "") none, .arrive "session" "files" "agent" list, .turn 0 (listing "") none,
    .turn 0 (listing "new") none, .turn 0 (listing "") none, .control (.turn ()),
    .control (.turn ()), .control (.turn ()), .control (.turn ())]

/-- The poller fetches and swaps in. -/
def Layer.polled (layer : Layer Unit Unit) : Layer Unit Unit :=
  { layer with quarantine := .replace (layer.control.quarantineList.map entryOf), fetched := none }

/-- The poller fetches the list and swaps it in. -/
theorem Layer.polled_run {layer : Layer Unit Unit} (idle : layer.fetched = none) :
    ((machine rollout).onwards layer).Run (.fetch :: [] ++ [.replace]) layer.polled := by
  have fetch : Step rollout layer .fetch _ := .fetch idle
  have replace : Step rollout { layer with fetched := some layer.control.quarantineList } .replace
      layer.polled := .replace rfl
  exact ((Machine.Run.start rfl).concat fetch).concat replace

/-- The changed tool comes to be in quarantine. -/
theorem suspicion_run :
    ∃ labels layer, (machine rollout).Run labels layer ∧
      ("files", "read") ∈ layer.control.quarantine ∧ layer.fetched = none := by
  have played : (suspicion.foldlM (Layer.perform rollout)
      { proxy := { audit := Proxy.Audit.initial 8 } }).map (fun layer =>
        decide (("files", "read") ∈ layer.control.quarantine) && layer.fetched.isNone) =
      some true := by decide +kernel
  rcases Option.map_eq_some_iff.mp played with ⟨layer, leads, both⟩
  rw [Bool.and_eq_true, decide_eq_true_iff, Option.isNone_iff_eq_none] at both
  rcases Layer.play_run (.start rfl) leads with ⟨labels, run, -⟩
  exact ⟨labels, layer, (Machine.Run.start rfl).append run, both⟩

/-- An agent asks for the tools again. -/
def asking : List (Move Unit Unit) :=
  [.emit "session", .emit "session",
    .arrive "session" "files" "agent" "\x7b\"method\":\"tools/list\"\x7d",
    .turn 2 (listing "") none, .turn 2 (listing "new") none, .turn 2 (listing "") none]

/-- The replies that are about to be sent to agents. -/
def Layer.replies (layer : Layer Unit Unit) : List (String × Proxy.ListReply) :=
  layer.proxy.goroutines.filterMap fun running =>
    running.2.listReply? rollout.gateway (listing "new")

/-- A call about the tool reached its second locked section with the verdict to quarantine it. -/
def Founded (deployment : Deployment Schema Call) (labels : List (Label Schema Call))
    (key : ToolKey) : Prop :=
  ∃ earlier call later moment, labels = earlier ++ .control (.turn call) :: later ∧
    (machine deployment).Run earlier moment ∧
    Control.Quarantines deployment.settings deployment.requests moment.control call key

/-- A later step keeps the cause. -/
theorem Founded.concat {key : ToolKey} (founded : Founded deployment labels key)
    (label : Label Schema Call) : Founded deployment (labels ++ [label]) key := by
  rcases founded with ⟨earlier, call, later, moment, rfl, run, quarantines⟩
  exact ⟨earlier, call, later ++ [label], moment, by simp, run, quarantines⟩

/-- Whatever is in quarantine, has been fetched or is listed, was put there by a call. -/
structure Grounded (deployment : Deployment Schema Call) (labels : List (Label Schema Call))
    (layer : Layer Schema Call) : Prop where
  quarantined : ∀ key ∈ layer.control.quarantine, Founded deployment labels key
  fetched : ∀ keys, layer.fetched = some keys → ∀ key ∈ keys, Founded deployment labels key
  listed : ∀ name ∈ layer.quarantine.keys, ∃ key : ToolKey, Proxy.key key.1 key.2 = name ∧
    Founded deployment labels key

/-- Whatever is in quarantine, or has been fetched or swapped in as such, has a cause. -/
theorem grounded_of_run (run : (machine deployment).Run labels layer) :
    Grounded deployment labels layer := by
  induction run with
  | start begins =>
      cases begins
      exact ⟨(fun _ absent => by cases absent), (fun _ absent => by cases absent),
        (fun _ absent => by cases absent)⟩
  | @concat labels layer next label run step ih =>
      have quarantined : ∀ key ∈ layer.control.quarantine,
          Founded deployment (labels ++ [label]) key :=
        fun key present => (ih.quarantined key present).concat label
      have fetched : ∀ keys, layer.fetched = some keys → ∀ key ∈ keys,
          Founded deployment (labels ++ [label]) key :=
        fun keys found key present => (ih.fetched keys found key present).concat label
      have listed : ∀ name ∈ layer.quarantine.keys, ∃ key : ToolKey,
          Proxy.key key.1 key.2 = name ∧ Founded deployment (labels ++ [label]) key := by
        intro name present
        rcases ih.listed name present with ⟨key, same, founded⟩
        exact ⟨key, same, founded.concat label⟩
      cases step with
      | proxy _ _ => exact ⟨quarantined, fetched, listed⟩
      | control _ handled =>
          refine ⟨fun key present => ?_, fetched, listed⟩
          rcases ((Control.quarantine_step (Control.run_honest (run_control run)) handled).mp
            present).2 with before | ⟨call, rfl, quarantines⟩
          · exact quarantined key before
          · exact ⟨labels, call, [], layer, rfl, run, quarantines⟩
      | fetch _ =>
          refine ⟨quarantined, ?_, listed⟩
          rintro _ ⟨⟩ key present
          exact quarantined key (mem_quarantineList.mp present)
      | lose => exact ⟨quarantined, (fun _ absent => by cases absent), listed⟩
      | replace found =>
          refine ⟨quarantined, (fun _ absent => by cases absent), fun name present => ?_⟩
          rcases List.mem_map.mp present with ⟨entry, among, rfl⟩
          rcases List.mem_map.mp among with ⟨key, keyed, rfl⟩
          exact ⟨key, rfl, fetched _ found key keyed⟩

/-- Why the control plane puts a tool of the key in quarantine: at its second locked section a call
has come to that verdict about a change of it, and the hash it recomputed for the new definition is
not the one the operators have approved last. -/
structure Cause (deployment : Deployment Schema Call) (earlier : List (Label Schema Call))
    (moment : Layer Schema Call) (call : Call) (server tool newHash : String) : Prop where
  key : Proxy.key (deployment.posts call).2.server (deployment.posts call).2.tool =
    Proxy.key server tool
  plain : '\x00' ∉ (deployment.posts call).2.server.toList → '\x00' ∉ server.toList →
    (deployment.posts call).2.server = server ∧ (deployment.posts call).2.tool = tool
  verdict : ∃ oldHash analysis cacheHit,
    moment.control.stage call = .analysed (oldHash, newHash) analysis cacheHit ∧
      Control.computeHashes deployment.settings.lib deployment.settings.sha
        (deployment.requests call) = .ok (oldHash, newHash) ∧
      Control.verdictOn deployment.settings (deployment.requests call) analysis = .quarantine
  answered : ∃ next body,
    moment.control.turn deployment.settings deployment.requests call = some next ∧
      next.stage call = .returned body ∧ body.verdict = .quarantine
  unapproved : ¬ Control.ApprovedIn (earlier.filterMap Label.control?)
    ((deployment.posts call).2.server, (deployment.posts call).2.tool) newHash

/-- **A quarantine has a reason.** A tool is only refused for its quarantine when a post about a
tool of its key was answered with that verdict, at a moment when the last approval of that tool, if
there was one, was of another hash than its new definition's. -/
theorem quarantine_grounded (run : (machine deployment).Run labels layer)
    (listed : layer.quarantine.contains server tool = true) :
    ∃ earlier call later moment newHash, labels = earlier ++ .control (.turn call) :: later ∧
      (machine deployment).Run earlier moment ∧
      Cause deployment earlier moment call server tool newHash := by
  rcases (grounded_of_run run).listed _ (of_decide_eq_true listed) with
    ⟨⟨server', tool'⟩, same, earlier, call, later, moment, rfl, before, ⟨oldHash, newHash⟩,
      analysis, cacheHit, analysed, hashed, about, verdict, unapproved⟩
  have carries := carries_of_parsed (deployment.parsed call)
  have sameServer : (deployment.requests call).server = server' := congrArg Prod.fst about
  have sameTool : (deployment.requests call).tool = tool' := congrArg Prod.snd about
  rw [carries.server] at sameServer
  rw [carries.tool] at sameTool
  refine ⟨earlier, call, later, moment, newHash, rfl, before, ?_, fun theirs ours => ?_,
    ⟨oldHash, analysis, cacheHit, analysed, hashed, verdict⟩, ?_, fun approved => ?_⟩
  · rw [sameServer, sameTool]
    exact same
  · rcases Proxy.key_inj (sameServer ▸ theirs) ours same with ⟨rfl, rfl⟩
    exact ⟨sameServer, sameTool⟩
  · rw [← about] at unapproved
    rw [← verdict]
    exact Control.turn_unapproved analysed unapproved
  · rw [sameServer, sameTool] at approved
    have holds := Control.approved_run (run_control before) approved
    rw [← Control.isApproved_eq_true, unapproved] at holds
    cases holds

/-- The tool whose changed description is suspicious is refused for that change. -/
theorem quarantine_grounded_suspicion :
    ∃ (earlier : List (Label Unit Unit)) (moment : Layer Unit Unit) (newHash : String),
      Cause rollout earlier moment () "files" "read" newHash := by
  rcases suspicion_run with ⟨labels, layer, run, quarantined, idle⟩
  have listed : layer.polled.quarantine.contains "files" "read" = true :=
    ((Held.fetch quarantined).replace rfl).listed
  rcases quarantine_grounded (run.append (Layer.polled_run idle)) listed with
    ⟨earlier, call, _, moment, newHash, _, _, cause⟩
  exact ⟨earlier, moment, newHash, cause⟩

end Trust
