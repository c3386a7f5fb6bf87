import Anviq.Proxy.System

/-! # Lists

What an agent is sent for a `tools/list`. A turn at a time, a request does what `handleToolsList`
does in one go; and whatever other goroutines do in between, the loop over a list has seen or will
see every tool of the body it holds back, stays blocked once it is, and is blocked by a tool that is
in quarantine when the loop comes to it.
-/

namespace Proxy

variable {Schema : Type}

/-! ## One tool after the other -/

section Inspect

variable {env : Env} {around : Surroundings Schema} {server name : String}
  {session : Session Schema} {listing : Listing} {tool : Tool}

/-- A round adds the tool it looks at to what the loop has seen. -/
theorem mem_seen_inspectTool :
    name ∈ (inspectTool env around server session listing tool).listing.seen ↔
      name = toolName tool ∨ name ∈ listing.seen := by
  unfold inspectTool
  dsimp only
  split
  · next duplicate =>
      exact ⟨.inr, fun either => either.elim (fun same => same ▸ duplicate) id⟩
  · split <;> exact List.mem_cons

/-- A round leaves a blocked list blocked. -/
theorem blocked_inspectTool (blocked : listing.blocked.isSome = true) :
    (inspectTool env around server session listing tool).listing.blocked.isSome = true := by
  unfold inspectTool
  dsimp only
  split
  · rfl
  · split
    · rfl
    · dsimp only
      rw [Option.isSome_or, blocked, Bool.true_or]

/-- A tool in quarantine blocks a list. -/
theorem blocked_of_quarantined (named : toolName tool ≠ "")
    (quarantined : around.quarantined server (toolName tool) = true) :
    (inspectTool env around server session listing tool).listing.blocked.isSome = true := by
  unfold inspectTool
  dsimp only
  split
  · rfl
  · rw [if_pos ⟨named, quarantined⟩]
    rfl

end Inspect

/-! ## The handler in one go -/

section Served

variable (gateway : Gateway Schema) (around : Surroundings Schema)

/-- Left alone, a goroutine goes on from the session until the agent is sent the reply. Goroutines
it starts besides are left for later. -/
inductive Serves : Session Schema → Goroutine Schema → Session Schema → String → ListReply → Prop
  where
  | reply {session : Session Schema} {goroutine : Goroutine Schema} {server : String}
      {reply : ListReply} (sent : goroutine.listReply? gateway around = some (server, reply)) :
      Serves session goroutine (goroutine.turn gateway around session).session server reply
  | turn {session last : Session Schema} {goroutine next : Goroutine Schema}
      {rest : List (Goroutine Schema)} {server : String} {reply : ListReply}
      (unsent : goroutine.listReply? gateway around = none)
      (goes : (goroutine.turn gateway around session).next = next :: rest)
      (serves : Serves (goroutine.turn gateway around session).session next last server reply) :
      Serves session goroutine last server reply

theorem inspectTools_serves (server body : String) (session : Session Schema) (listing : Listing)
    (tools : List Tool) :
    Serves gateway around session (.inspecting server (some body) listing tools)
      (inspectTools gateway.env around server session listing tools).1 server
      ((inspectTools gateway.env around server session listing tools).2.reply body) := by
  induction tools generalizing session listing with
  | nil => exact .reply rfl
  | cons tool tools ih => exact .turn rfl rfl (ih _ _)

/-- What the agent is sent at the turn of a `tools/list`, or the goroutine that goes on. -/
theorem listReply?_dispatched (server : String) {request : Request}
    (list : request.method = "tools/list") :
    (Goroutine.dispatched server request : Goroutine Schema).listReply? gateway around =
      match around.upstream with
      | .error error => some (server, .unreachable error)
      | .ok body =>
          match readList gateway.parseFloat body with
          | .invalid => some (server, .blocked invalidList)
          | .errored => some (server, .through body)
          | .tools _ => none := by
  unfold Goroutine.listReply?
  exact if_pos list

/-- A `tools/list` that nothing interrupts is what `handleToolsList` makes of it. -/
theorem handleToolsList_serves (server : String) (session : Session Schema) {request : Request}
    (list : request.method = "tools/list") :
    Serves gateway around session (.dispatched server request)
      (handleToolsList gateway around server session).1 server
      (handleToolsList gateway around server session).2 := by
  have turn : (Goroutine.dispatched server request).turn gateway around session =
      { session, next := startInspection gateway.parseFloat server true around.upstream } := by
    rw [Goroutine.turn, if_pos list]
  have replies := listReply?_dispatched gateway around server list
  have sent {reply : ListReply} (sent : (Goroutine.dispatched server request).listReply? gateway
      around = some (server, reply)) :
      Serves gateway around session (.dispatched server request) session server reply := by
    have serves : Serves gateway around session _ _ server reply := .reply sent
    rwa [turn] at serves
  unfold handleToolsList observeListResponse
  cases answered : around.upstream with
  | error error =>
      rw [answered] at replies
      exact sent replies
  | ok body =>
      rw [answered] at replies
      dsimp only at replies ⊢
      cases reading : readList gateway.parseFloat body with
      | invalid =>
          rw [reading] at replies
          exact sent replies
      | errored =>
          rw [reading] at replies
          exact sent replies
      | tools tools =>
          rw [reading] at replies
          have starts : startInspection gateway.parseFloat server true around.upstream =
              [(Goroutine.inspecting server (some body) {} tools : Goroutine Schema)] := by
            unfold startInspection
            rw [answered]
            dsimp only
            rw [reading]
            rfl
          have serves := inspectTools_serves gateway around server body session {} tools
          have goes : ((Goroutine.dispatched server request).turn gateway around session).next =
              [.inspecting server (some body) {} tools] := by
            rw [turn]
            exact starts
          refine .turn replies goes ?_
          rw [turn]
          dsimp only
          unfold Listing.reply at serves
          cases blocked : (inspectTools gateway.env around server session {} tools).2.blocked with
          | none =>
              rw [blocked] at serves
              exact serves
          | some block =>
              rw [blocked] at serves
              exact serves

end Served

/-! ## Among other goroutines -/

/-- The body is a list with a tool of the name. -/
def Shows (parseFloat : String → Option Number) (body name : String) : Prop :=
  ∃ tools, readList parseFloat body = .tools tools ∧ ∃ tool ∈ tools, toolName tool = name

/-- Every tool of the body that is held back has been looked at or will be. -/
def Goroutine.Covers (parseFloat : String → Option Number) : Goroutine Schema → Prop
  | .inspecting _ (some body) listing rest =>
      ∃ tools, readList parseFloat body = .tools tools ∧
        ∀ tool ∈ tools, toolName tool ∈ listing.seen ∨ tool ∈ rest
  | _ => True

/-- A tool of the name has been looked at and the body of the server may still go through. -/
def Goroutine.Passed (server name body : String) : Goroutine Schema → Prop
  | .inspecting server' held listing _ =>
      server' = server ∧ held = some body ∧ name ∈ listing.seen ∧ listing.blocked = none
  | _ => False

section Turns

variable {gateway : Gateway Schema} {around : Surroundings Schema} {session : Session Schema}
  {goroutine fresh : Goroutine Schema} {server name body : String} {held : Option String}
  {listing : Listing} {tools : List Tool}

theorem startInspection_inspecting {parseFloat : String → Option Number} {asked : Bool}
    {upstream : Except String String} {from' : String}
    (among : .inspecting server held listing tools ∈
      (startInspection parseFloat from' asked upstream : List (Goroutine Schema))) :
    listing = {} ∧ ∃ body, readList parseFloat body = .tools tools ∧
      ∀ text, held = some text → text = body := by
  unfold startInspection at among
  split at among
  · cases among
  · next body =>
      split at among
      · next reading =>
          cases List.mem_singleton.mp among
          refine ⟨rfl, body, reading, fun text holds => ?_⟩
          split at holds
          · exact (Option.some.inj holds).symm
          · cases holds
      · cases among

/-- A loop over a list begins with all of its tools, or has done one more round. -/
theorem turn_inspecting
    (among : .inspecting server held listing tools ∈ (goroutine.turn gateway around session).next) :
    (listing = {} ∧ ∃ body, readList gateway.parseFloat body = .tools tools ∧
        ∀ text, held = some text → text = body) ∨
      ∃ before tool, goroutine = .inspecting server held before (tool :: tools) ∧
        listing = (inspectTool gateway.env around server session before tool).listing := by
  cases goroutine with
  | arrived from' agent text =>
      unfold Goroutine.turn at among
      dsimp only at among
      split at among
      · cases among
      · cases List.mem_singleton.mp among
  | dispatched from' request =>
      unfold Goroutine.turn at among
      dsimp only at among
      split at among
      · exact .inl (startInspection_inspecting among)
      · split at among
        · unfold dispatchCall emitTurn at among
          dsimp only at among
          split at among
          · cases among
          · split at among
            · cases among
            · split at among
              · cases among
              · split at among
                · cases List.mem_singleton.mp among
                · cases among
        · cases among
  | relisting from' => exact .inl (startInspection_inspecting among)
  | inspecting from' kept before rest =>
      cases rest with
      | nil => cases among
      | cons tool rest =>
          rcases List.mem_cons.mp among with same | started
          · cases same
            exact .inr ⟨before, tool, rfl, rfl⟩
          · rcases Option.mem_map.mp (Option.mem_toList.mp started) with ⟨report, -, absurdity⟩
            cases absurdity
  | reporting report => cases among
  | allowed from' params decision =>
      unfold Goroutine.turn emitTurn at among
      dsimp only at among
      split at among <;> cases List.mem_singleton.mp among
  | warned from' params decision =>
      unfold Goroutine.turn auditCall emitTurn at among
      dsimp only at among
      split at among
      · cases List.mem_singleton.mp among
      · cases among
      · cases among
      · cases List.mem_singleton.mp among
  | posted from' callId =>
      unfold Goroutine.turn emitTurn at among
      dsimp only at among
      split at among
      · cases List.mem_singleton.mp among
      · cases among
  | failed callId reason => cases among

/-- A tool in quarantine is not passed at a turn. -/
theorem turn_passed (named : name ≠ "") (quarantined : around.quarantined server name = true)
    (among : fresh ∈ (goroutine.turn gateway around session).next)
    (passed : fresh.Passed server name body) : goroutine.Passed server name body := by
  cases fresh with
  | inspecting from' held listing tools =>
      rcases passed with ⟨rfl, rfl, seen, unblocked⟩
      rcases turn_inspecting among with ⟨rfl, -⟩ | ⟨before, tool, rfl, rfl⟩
      · cases seen
      · rcases mem_seen_inspectTool.mp seen with rfl | seen
        · have blocked := @blocked_of_quarantined _ gateway.env around _ session before tool named
            quarantined
          rw [unblocked] at blocked
          cases blocked
        · refine ⟨rfl, rfl, seen, ?_⟩
          cases blocked : before.blocked with
          | none => rfl
          | some block =>
              have kept := @blocked_inspectTool _ gateway.env around from' session before tool
                (by rw [blocked]; rfl)
              rw [unblocked] at kept
              cases kept
  | _ => exact passed.elim

end Turns

/-! ## Runs -/

section Runs

variable {gateway : Gateway Schema} {capacity : Nat} {system next : System Schema}
  {label : SystemLabel Schema}

/-- A goroutine was there before a step, has arrived with it, or goes on after its turn. -/
theorem step_goroutines (step : SystemStep gateway system label next)
    {running : String × Goroutine Schema} (among : running ∈ next.goroutines) :
    running ∈ system.goroutines ∨
      (∃ server agent body, running.2 = .arrived server agent body) ∨
      ∃ goroutine around, label = .turn running.1 goroutine around ∧
        (running.1, goroutine) ∈ system.goroutines ∧
        running.2 ∈ (goroutine.turn gateway around (system.audit.sessions running.1)).next := by
  cases step with
  | arrive id server agent body =>
      rcases List.mem_append.mp among with old | new
      · exact .inl old
      · rw [List.mem_singleton.mp new]
        exact .inr (.inl ⟨server, agent, body, rfl⟩)
  | @turn id goroutine front back around listed unlocked =>
      have present : running ∈ front ++ ((goroutine.turn gateway around
          (system.audit.sessions id)).next.map (id, ·)) ++ back := among
      rw [List.mem_append, List.mem_append] at present
      rcases present with (before | fresh) | after
      · exact .inl (listed ▸ List.mem_append_left _ before)
      · rcases List.mem_map.mp fresh with ⟨goes, present, rfl⟩
        exact .inr (.inr ⟨goroutine, around, rfl, listed ▸ by simp, present⟩)
      · exact .inl (listed ▸ List.mem_append_right _ (List.mem_cons_of_mem _ after))
  | emit held => exact .inl among
  | write queued => exact .inl among
  | close => exact .inl among

end Runs

end Proxy
