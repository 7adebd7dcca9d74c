import SecNet.Exn
import SecNet.Lib.Plan
import SecNet.Lib.Undo

/-!
# The routing of a client

`setup_client_routing` sends all traffic of the client through the tunnel: it looks up the route
to the server, adds a route to the server that keeps it, two routes that cover everything else
through the tunnel, and a rule of the address translation. `restore_client_routing` is called
with what it returns, and deletes them.

* `run_setupPlan`: what the setup leaves when all its commands return;
* `restored_iff`: when the routes and the rules are the initial ones again;
* `tunnel_left_behind`: the last command is missing.
-/

namespace SecNet

/-! ## The host -/

/-- A route. Without a gateway, a device or a source address, it has none. -/
structure HostRoute where
  dst : String × ℕ
  via : Option String
  dev : Option String
  src : Option String
  metric : ℕ
  deriving DecidableEq

/-- A rule of the `POSTROUTING` chain of the table `nat`. -/
inductive NatRule
  | masquerade (ifname : String)
  | other (text : String)
  deriving DecidableEq

/-- The routing table, with the routes to a destination in the order of their metrics, and the
    rules of the address translation. -/
@[ext]
structure ClientHost where
  routes : List HostRoute
  postrouting : List NatRule
  deriving DecidableEq

/-- A route is found by its destination, and by its device where one is given. -/
def HostRoute.Matches (dst : String × ℕ) (dev : Option String) (r : HostRoute) : Prop :=
  r.dst = dst ∧ (dev = none ∨ r.dev = dev)

instance (dst : String × ℕ) (dev : Option String) : DecidablePred (HostRoute.Matches dst dev) :=
  fun _ => inferInstanceAs (Decidable (_ ∧ _))

namespace ClientHost

/-- There is a route to the destination with the least metric. -/
def HasRoute (h : ClientHost) (dst : String × ℕ) : Prop :=
  ∃ r ∈ h.routes, r.dst = dst ∧ r.metric = 0

instance (h : ClientHost) (dst : String × ℕ) : Decidable (h.HasRoute dst) :=
  inferInstanceAs (Decidable (∃ _ ∈ _, _))

/-- `ip route add`. It fails where there is a route to the destination with the metric. -/
def addRoute (r : HostRoute) (h : ClientHost) : ClientHost :=
  if h.HasRoute r.dst then h else { h with routes := r :: h.routes }

/-- `ip route del`: the first route that matches. -/
def deleteRoute (dst : String × ℕ) (dev : Option String) (h : ClientHost) : ClientHost :=
  { h with routes := h.routes.eraseP fun r => HostRoute.Matches dst dev r }

/-- `iptables -t nat -A POSTROUTING`. -/
def appendRule (rule : NatRule) (h : ClientHost) : ClientHost :=
  { h with postrouting := h.postrouting ++ [rule] }

/-- `iptables -t nat -D POSTROUTING`: the first rule that is this one. -/
def deleteRule (rule : NatRule) (h : ClientHost) : ClientHost :=
  { h with postrouting := h.postrouting.erase rule }

/-- The number of routes and rules. -/
def size (h : ClientHost) : ℕ := h.routes.length + h.postrouting.length

end ClientHost

/-! ## Setup and restore -/

/-- How a command ends: it is run, which may fail where there is such a route already, it fails for
    another reason, or it is not there. -/
inductive CommandOutcome
  | runs
  | fails
  | raises (e : Exn)
  deriving DecidableEq

/-- `subprocess.run(command, check=False)`. -/
def command (effect : ClientHost → ClientHost) : CommandOutcome → PlanStep Exn ClientHost
  | .runs => ⟨.ok (), effect⟩
  | .fails => ⟨.ok (), id⟩
  | .raises e => ⟨.error e, id⟩

/-- The arguments of `setup_client_routing`, where the address of the server is that of a
    connected socket. -/
structure ClientTunnel where
  ifname : String
  server : String
  server_ne : server ≠ ""
  tunIp : String

/-- How the commands of `setup_client_routing` end. -/
structure SetupOutcomes where
  server : CommandOutcome
  low : CommandOutcome
  high : CommandOutcome
  masquerade : CommandOutcome
  conntrack : CommandOutcome

/-- What `setup_client_routing` returns. -/
structure OriginalRoute where
  gw : Option String
  dev : Option String
  server : String
  ifname : String
  deriving DecidableEq

/-- `parts[parts.index(word) + 1] if word in parts else None`. -/
def wordAfter (word : String) (parts : List String) : Except Exn (Option String) :=
  if word ∈ parts then
    match parts[parts.idxOf word + 1]? with
    | some next => .ok (some next)
    | none => .error (.indexError "list index out of range")
  else .ok none

/-- The gateway and the device of the route to the server, of the words that `ip route get`
    prints. -/
def routeTo (output : Except Exn (List String)) : Except Exn (Option String × Option String) := do
  let parts ← output
  return (← wordAfter "via" parts, ← wordAfter "dev" parts)

namespace ClientTunnel

/-- The route to the server, where it has a device. -/
def serverRoute (t : ClientTunnel) (gw dev : Option String) : Option HostRoute :=
  match dev.filter (· ≠ ""), gw.filter (· ≠ "") with
  | some dev, gw => some ⟨(t.server, 32), gw, some dev, none, 0⟩
  | none, _ => none

/-- A route through the tunnel. -/
def halfRoute (t : ClientTunnel) (address : String) : HostRoute :=
  ⟨(address, 1), none, some t.ifname, some (.ofList (t.tunIp.toList.takeWhile (· ≠ '/'))), 0⟩

/-- The commands that change the host, and the last one, which does not. -/
def setupPlan (t : ClientTunnel) (o : SetupOutcomes) (gw dev : Option String) :
    Plan Exn ClientHost :=
  ((t.serverRoute gw dev).map fun r => command (.addRoute r) o.server).toList ++
    [command (.addRoute (t.halfRoute "0.0.0.0")) o.low,
      command (.addRoute (t.halfRoute "128.0.0.0")) o.high,
      command (.appendRule (.masquerade t.ifname)) o.masquerade,
      command id o.conntrack]

/-- `setup_client_routing`. -/
def setup (t : ClientTunnel) (output : Except Exn (List String)) (o : SetupOutcomes)
    (h : ClientHost) : ClientHost × Option OriginalRoute :=
  match routeTo output with
  | .error _ => (h, none)
  | .ok (gw, dev) =>
    match (t.setupPlan o gw dev).run h with
    | (h, .ok ()) => (h, some ⟨gw, dev, t.server, t.ifname⟩)
    | (h, .error _) => (h, none)

end ClientTunnel

/-- `restore_client_routing`, with its commands there. -/
def restoreClientRouting (originalRoute : Option OriginalRoute) (h : ClientHost) : ClientHost :=
  match originalRoute with
  | none => h
  | some r =>
    let h := if r.server = "" then h else h.deleteRoute (r.server, 32) none
    let h := h.deleteRoute ("0.0.0.0", 1) (some r.ifname)
    let h := h.deleteRoute ("128.0.0.0", 1) (some r.ifname)
    h.deleteRule (.masquerade r.ifname)

/-! ## What the commands do -/

variable {t : ClientTunnel} {o : SetupOutcomes} {h : ClientHost} {gw dev : Option String}
  {output : Except Exn (List String)}

/-- The command adds the route. -/
def AddsRoute (h : ClientHost) (r : HostRoute) (outcome : CommandOutcome) : Prop :=
  outcome = .runs ∧ ¬h.HasRoute r.dst

instance (h : ClientHost) (r : HostRoute) (outcome : CommandOutcome) :
    Decidable (AddsRoute h r outcome) := inferInstanceAs (Decidable (_ ∧ _))

/-- The command that adds the route to the server is there, and adds it. -/
def AddsServerRoute (t : ClientTunnel) (o : SetupOutcomes) (gw dev : Option String)
    (h : ClientHost) : Prop :=
  ∃ r ∈ t.serverRoute gw dev, AddsRoute h r o.server

instance : Decidable (AddsServerRoute t o gw dev h) := inferInstanceAs (Decidable (∃ _ ∈ _, _))

theorem effect_addRoute (r : HostRoute) (outcome : CommandOutcome) (h : ClientHost) :
    (command (.addRoute r) outcome).effect h =
      { h with routes := consIf (AddsRoute h r outcome) r h.routes } := by
  cases outcome with
  | runs =>
    change ClientHost.addRoute r h = _
    rw [ClientHost.addRoute, consIf]
    by_cases hroute : h.HasRoute r.dst
    · rw [if_pos hroute, if_neg fun hadds => hadds.2 hroute]
    · rw [if_neg hroute, if_pos ⟨rfl, hroute⟩]
  | fails => rw [consIf, if_neg fun hadds => by cases hadds.1]; rfl
  | raises e => rw [consIf, if_neg fun hadds => by cases hadds.1]; rfl

theorem effect_appendRule (rule : NatRule) (outcome : CommandOutcome) (h : ClientHost) :
    (command (.appendRule rule) outcome).effect h = { h with postrouting :=
      if outcome = .runs then h.postrouting ++ [rule] else h.postrouting } := by
  cases outcome <;> rfl

/-- Every command adds something, or changes nothing. -/
theorem size_setupPlan : ∀ x ∈ t.setupPlan o gw dev, ∀ h,
    x.effect h = h ∨ h.size < (x.effect h).size := by
  have hroute : ∀ r outcome h, (command (.addRoute r) outcome).effect h = h ∨
      h.size < ((command (.addRoute r) outcome).effect h).size := by
    intro r outcome h
    rw [effect_addRoute, consIf]
    split_ifs
    · right
      simp only [ClientHost.size, List.length_cons]
      omega
    · exact .inl rfl
  have hrule : ∀ rule outcome h, (command (.appendRule rule) outcome).effect h = h ∨
      h.size < ((command (.appendRule rule) outcome).effect h).size := by
    intro rule outcome h
    rw [effect_appendRule]
    split_ifs
    · right
      simp only [ClientHost.size, List.length_append, List.length_singleton]
      omega
    · exact .inl rfl
  have hnone : ∀ outcome h, (command id outcome).effect h = h := by
    intro outcome h
    cases outcome <;> rfl
  intro x hx h
  rw [ClientTunnel.setupPlan, List.mem_append, Option.mem_toList, Option.map_eq_some_iff] at hx
  simp only [List.mem_cons, List.not_mem_nil, or_false] at hx
  rcases hx with ⟨r, -, rfl⟩ | rfl | rfl | rfl | rfl
  · exact hroute ..
  · exact hroute ..
  · exact hroute ..
  · exact hrule ..
  · exact .inl (hnone ..)

theorem dst_serverRoute {r : HostRoute} (hr : r ∈ t.serverRoute gw dev) :
    r.dst = (t.server, 32) := by
  rw [ClientTunnel.serverRoute] at hr
  split at hr
  · rw [← Option.some.inj hr]
  · cases hr

/-- A route to another destination makes no difference. -/
theorem addsRoute_consIf {added : Prop} [Decidable added] {r r' : HostRoute} (hdst : r.dst ≠ r'.dst)
    (routes : List HostRoute) (postrouting : List NatRule) (outcome : CommandOutcome) :
    AddsRoute ⟨consIf added r routes, postrouting⟩ r' outcome ↔
      AddsRoute ⟨routes, postrouting⟩ r' outcome := by
  rw [AddsRoute, AddsRoute, ClientHost.HasRoute, ClientHost.HasRoute]
  refine and_congr_right fun _ => not_congr (exists_congr fun x => and_congr_left fun hx => ?_)
  refine mem_consIf.trans (or_iff_right ?_)
  rintro ⟨-, rfl⟩
  exact hdst hx.1

/-- The routes, when the one to the server may have been added. -/
def serverRoutes (t : ClientTunnel) (o : SetupOutcomes) (gw dev : Option String) (h : ClientHost) :
    List HostRoute :=
  match t.serverRoute gw dev with
  | some r => consIf (AddsRoute h r o.server) r h.routes
  | none => h.routes

theorem foldl_serverRoute : (((t.serverRoute gw dev).map fun r =>
    command (.addRoute r) o.server).toList.foldl (fun h x => x.effect h) h) =
      { h with routes := serverRoutes t o gw dev h } := by
  rw [serverRoutes]
  rcases t.serverRoute gw dev with _ | r
  · rfl
  · exact effect_addRoute r o.server h

/-- A route to another destination than the server is added all the same. -/
theorem addsRoute_serverRoutes {r : HostRoute} (hdst : r.dst ≠ (t.server, 32))
    (outcome : CommandOutcome) :
    AddsRoute { h with routes := serverRoutes t o gw dev h } r outcome ↔ AddsRoute h r outcome := by
  rw [serverRoutes]
  rcases hserver : t.serverRoute gw dev with _ | r'
  · rfl
  · exact addsRoute_consIf (dst_serverRoute hserver ▸ hdst.symm) ..

theorem eraseP_serverRoutes : (serverRoutes t o gw dev h).eraseP
    (fun r => HostRoute.Matches (t.server, 32) none r) =
      deleteUnless (AddsServerRoute t o gw dev h)
        (HostRoute.Matches (t.server, 32) none) h.routes := by
  rw [serverRoutes]
  rcases hserver : t.serverRoute gw dev with _ | r
  · have hadds : ¬AddsServerRoute t o gw dev h := by
      rintro ⟨r, hr, -⟩
      cases hserver.symm.trans hr
    rw [deleteUnless, if_neg hadds]
  · have hadds : AddsRoute h r o.server ↔ AddsServerRoute t o gw dev h := by
      refine ⟨fun hr => ⟨r, hserver, hr⟩, ?_⟩
      rintro ⟨r', hr', hadds⟩
      obtain rfl := Option.some.inj (hserver.symm.trans hr')
      exact hadds
    rw [← deleteUnless_congr hadds]
    exact eraseP_consIf _ ⟨dst_serverRoute hserver, .inl rfl⟩

/-- What is left of a setup whose commands all return. -/
theorem run_setupPlan (hreturns : (t.setupPlan o gw dev).Returns) :
    (t.setupPlan o gw dev).run h = ({
      routes := consIf (AddsRoute h (t.halfRoute "128.0.0.0") o.high) (t.halfRoute "128.0.0.0")
        (consIf (AddsRoute h (t.halfRoute "0.0.0.0") o.low) (t.halfRoute "0.0.0.0")
          (serverRoutes t o gw dev h))
      postrouting := if o.masquerade = .runs then
        h.postrouting ++ [.masquerade t.ifname] else h.postrouting }, .ok ()) := by
  have hserver : ∀ address, (t.halfRoute address).dst ≠ (t.server, 32) := fun address heq => by
    cases congrArg Prod.snd heq
  have hconntrack : ∀ h, (command id o.conntrack).effect h = h := by
    intro h
    cases o.conntrack <;> rfl
  rw [Plan.run_of_returns hreturns, ClientTunnel.setupPlan, List.foldl_append, foldl_serverRoute]
  simp only [List.foldl_cons, List.foldl_nil, effect_addRoute, effect_appendRule, hconntrack]
  rw [consIf_congr (addsRoute_serverRoutes (hserver _) _),
    consIf_congr ((addsRoute_consIf (by simp [ClientTunnel.halfRoute]) ..).trans
      (addsRoute_serverRoutes (hserver _) _))]

/-! ## When the host is as it was -/

/-- A route that was added is deleted again, and otherwise there was none to delete. -/
def RouteRestored (h : ClientHost) (added : Prop) (dst : String × ℕ) (dev : Option String) : Prop :=
  added ∨ ∀ r ∈ h.routes, ¬HostRoute.Matches dst dev r

/-- The rule was appended to a chain that had it at its end only, if at all; or it was not, to a
    chain that did not have it. -/
def RuleRestored (h : ClientHost) (rule : NatRule) (outcome : CommandOutcome) : Prop :=
  if outcome = .runs then ∀ x ∈ h.postrouting.dropWhile (· ≠ rule), x = rule
  else rule ∉ h.postrouting

/-- All commands return, and what they have added or not added is restored; or one raises, and those
    before it have not changed anything. -/
def Restorable (t : ClientTunnel) (o : SetupOutcomes) (gw dev : Option String) (h : ClientHost) :
    Prop :=
  ((t.setupPlan o gw dev).Returns ∧
    RouteRestored h (AddsServerRoute t o gw dev h) (t.server, 32) none ∧
    RouteRestored h (AddsRoute h (t.halfRoute "0.0.0.0") o.low) ("0.0.0.0", 1) (some t.ifname) ∧
    RouteRestored h (AddsRoute h (t.halfRoute "128.0.0.0") o.high) ("128.0.0.0", 1)
      (some t.ifname) ∧
    RuleRestored h (.masquerade t.ifname) o.masquerade) ∨
  ¬(t.setupPlan o gw dev).Returns ∧ ∀ x ∈ (t.setupPlan o gw dev).done, x.effect h = h

/-- The routes that are left when nothing raises. -/
theorem routes_restore : (((consIf (AddsRoute h (t.halfRoute "128.0.0.0") o.high)
    (t.halfRoute "128.0.0.0") (consIf (AddsRoute h (t.halfRoute "0.0.0.0") o.low)
      (t.halfRoute "0.0.0.0") (serverRoutes t o gw dev h))).eraseP
        (fun r => HostRoute.Matches (t.server, 32) none r)).eraseP
        (fun r => HostRoute.Matches ("0.0.0.0", 1) (some t.ifname) r)).eraseP
        (fun r => HostRoute.Matches ("128.0.0.0", 1) (some t.ifname) r) =
    deleteUnless (AddsRoute h (t.halfRoute "128.0.0.0") o.high)
      (HostRoute.Matches ("128.0.0.0", 1) (some t.ifname))
      (deleteUnless (AddsRoute h (t.halfRoute "0.0.0.0") o.low)
        (HostRoute.Matches ("0.0.0.0", 1) (some t.ifname))
        (deleteUnless (AddsServerRoute t o gw dev h)
          (HostRoute.Matches (t.server, 32) none) h.routes)) := by
  have hserver : ∀ address, ¬HostRoute.Matches (t.server, 32) none (t.halfRoute address) := by
    intro address hmatches
    cases congrArg Prod.snd hmatches.1
  have hhigh : ¬HostRoute.Matches ("0.0.0.0", 1) (some t.ifname) (t.halfRoute "128.0.0.0") := by
    simp [HostRoute.Matches, ClientTunnel.halfRoute]
  rw [eraseP_consIf_of_neg _ (hserver _), eraseP_consIf_of_neg _ (hserver _), eraseP_serverRoutes,
    eraseP_consIf_of_neg _ hhigh, eraseP_consIf _ ⟨rfl, .inr rfl⟩, eraseP_consIf _ ⟨rfl, .inr rfl⟩]

theorem routeRestored_iff {added : Prop} [Decidable added] {dst : String × ℕ} :
    deleteUnless added (HostRoute.Matches dst dev) h.routes = h.routes ↔
      RouteRestored h added dst dev :=
  deleteUnless_eq_iff added

/-- What a client has after a setup whose commands all return, and the restore. -/
theorem restored_iff_of_returns (hreturns : (t.setupPlan o gw dev).Returns) :
    restoreClientRouting (some ⟨gw, dev, t.server, t.ifname⟩) ((t.setupPlan o gw dev).run h).1 = h ↔
      RouteRestored h (AddsServerRoute t o gw dev h) (t.server, 32) none ∧
      RouteRestored h (AddsRoute h (t.halfRoute "0.0.0.0") o.low) ("0.0.0.0", 1) (some t.ifname) ∧
      RouteRestored h (AddsRoute h (t.halfRoute "128.0.0.0") o.high) ("128.0.0.0", 1)
        (some t.ifname) ∧
      RuleRestored h (.masquerade t.ifname) o.masquerade := by
  rw [run_setupPlan hreturns, restoreClientRouting, if_neg t.server_ne, ClientHost.ext_iff]
  simp only [ClientHost.deleteRoute, ClientHost.deleteRule]
  rw [routes_restore, deleteUnless_eq_iff_of_sublist ((deleteUnless_sublist ..).trans
    (deleteUnless_sublist ..)), deleteUnless_eq_iff_of_sublist (deleteUnless_sublist ..),
    routeRestored_iff, routeRestored_iff, routeRestored_iff, RuleRestored, and_assoc, and_assoc]
  refine and_congr_right fun _ => and_congr_right fun _ => and_congr_right fun _ => ?_
  split_ifs
  · exact append_erase_eq_iff ..
  · exact List.erase_eq_self_iff

/-- After the setup and the restore, the routes and the rules are the initial ones exactly when the
    route to the server is not found, or the host is restorable. -/
theorem restored_iff (t : ClientTunnel) (output : Except Exn (List String)) (o : SetupOutcomes)
    (h : ClientHost) :
    restoreClientRouting (t.setup output o h).2 (t.setup output o h).1 = h ↔
      ∀ gw dev, routeTo output = .ok (gw, dev) → Restorable t o gw dev h := by
  rw [ClientTunnel.setup]
  rcases routeTo output with e | ⟨gw, dev⟩
  · exact iff_of_true rfl nofun
  have hroute : (∀ gw' dev', (.ok (gw, dev) : Except Exn (Option String × Option String)) =
      .ok (gw', dev') → Restorable t o gw' dev' h) ↔ Restorable t o gw dev h := by
    constructor
    · intro hrestorable
      exact hrestorable gw dev rfl
    · rintro hrestorable gw' dev' heq
      obtain ⟨rfl, rfl⟩ := Prod.mk.inj (Except.ok.inj heq)
      exact hrestorable
  rw [hroute, Restorable]
  dsimp only
  rcases hrun : (t.setupPlan o gw dev).run h with ⟨h', e | ⟨⟩⟩
  · have hreturns : ¬(t.setupPlan o gw dev).Returns := by
      rw [← Plan.run_snd_eq_ok (s := h), hrun]
      exact nofun
    rw [or_iff_right fun hleft => hreturns hleft.1, and_iff_right hreturns,
      ← Plan.run_fst_eq_iff ClientHost.size size_setupPlan, hrun]
    rfl
  · have hreturns : (t.setupPlan o gw dev).Returns := by
      rw [← Plan.run_snd_eq_ok (s := h), hrun]
    rw [or_iff_left fun hright => hright.1 hreturns, and_iff_right hreturns,
      ← restored_iff_of_returns hreturns, hrun]

/-- A client whose `conntrack` is missing. -/
def exampleTunnel : ClientTunnel := ⟨"tun0", "203.0.113.5", by decide, "10.8.0.2/24"⟩

def missingConntrack : SetupOutcomes :=
  ⟨.runs, .runs, .runs, .runs, .raises (.osError "No such file or directory: 'conntrack'")⟩

/-- All traffic is still sent through the tunnel. -/
theorem tunnel_left_behind : ∃ output,
    restoreClientRouting (exampleTunnel.setup output missingConntrack ⟨[], []⟩).2
      (exampleTunnel.setup output missingConntrack ⟨[], []⟩).1 ≠ ⟨[], []⟩ :=
  ⟨.ok ["203.0.113.5", "via", "192.0.2.1", "dev", "eth0"], by decide⟩

end SecNet
