import LLNStack.Lib.Argmax
import LLNStack.Lib.Run
import LLNStack.Ip.Route

/-!
# LLNStack.Ip.Prefix

Longest-prefix routing. `ip_route_lookup` compares netmasks as numbers in host order; for netmasks
whose ones come before their zeros this is the order of their prefix lengths
(`lt_iff_prefixLength`).

* `ipRouteLookup_eq`: the lookup is the first of the matching routes with the largest netmask.
* `routes_longest_match`: what it finds in a table made by any calls of `ip_register_interface` and
  `ip_set_default_gateway`.
-/

namespace LLNStack

open Lib

/-! ## Netmasks -/

/-- `p` ones, and then zeros down to the least significant bit. -/
def prefixMask (p : Nat) : BitVec 32 := BitVec.allOnes 32 <<< (32 - p)

def prefixLength (netmask : IPAddress) : Nat := (List.range 32).countP (netmask.getLsbD ·)

/-- In the order of the network the ones come first. -/
def IsNetmask (netmask : IPAddress) : Prop := ∃ p ≤ 32, ntoh32 .little netmask = prefixMask p

theorem prefixLength_prefixMask :
    ∀ p : Fin 33, prefixLength (byteswap32 (prefixMask p)) = p := by decide +kernel

theorem prefixMask_lt_iff : ∀ p q : Fin 33, prefixMask p < prefixMask q ↔ p < q := by
  decide +kernel

theorem IsNetmask.eq {netmask : IPAddress} (h : IsNetmask netmask) :
    prefixLength netmask ≤ 32 ∧ netmask = byteswap32 (prefixMask (prefixLength netmask)) := by
  obtain ⟨p, hp, heq⟩ := h
  rw [ntoh32, if_pos rfl] at heq
  have hmask : netmask = byteswap32 (prefixMask p) := by rw [← heq, byteswap32_byteswap32]
  have hlen : prefixLength netmask = p := by
    rw [hmask]
    exact prefixLength_prefixMask ⟨p, by omega⟩
  rw [hlen]
  exact ⟨hp, hmask⟩

theorem isNetmask_any : IsNetmask ipAddrAny := ⟨0, by omega, by decide⟩

/-- Comparing netmasks in host order compares prefix lengths. -/
theorem lt_iff_prefixLength {m₁ m₂ : IPAddress} (h₁ : IsNetmask m₁) (h₂ : IsNetmask m₂) :
    (ntoh32 .little m₁).toNat < (ntoh32 .little m₂).toNat ↔
      prefixLength m₁ < prefixLength m₂ := by
  obtain ⟨hle₁, heq₁⟩ := h₁.eq
  obtain ⟨hle₂, heq₂⟩ := h₂.eq
  have hlt := prefixMask_lt_iff ⟨prefixLength m₁, by omega⟩ ⟨prefixLength m₂, by omega⟩
  rw [Fin.mk_lt_mk] at hlt
  rw [← hlt, BitVec.lt_def]
  simp only [ntoh32, if_true]
  rw [← byteswap32_byteswap32 (prefixMask (prefixLength m₁)), ← heq₁,
    ← byteswap32_byteswap32 (prefixMask (prefixLength m₂)), ← heq₂]

/-! ## The lookup -/

def IpRoute.Matches (route : IpRoute) (dst : IPAddress) : Prop :=
  dst &&& route.netmask = route.network

instance (route : IpRoute) (dst : IPAddress) : Decidable (route.Matches dst) :=
  inferInstanceAs (Decidable (_ = _))

def IpRoute.key (route : IpRoute) : Nat := (ntoh32 .little route.netmask).toNat

theorem ipRouteLookupLoop_eq (dst : IPAddress) (candidate : Option IpRoute)
    (routes : List IpRoute) :
    ipRouteLookupLoop dst candidate routes =
      (routes.filter (·.Matches dst)).foldl
        (List.argAux fun b c => IpRoute.key c < IpRoute.key b) candidate := by
  induction routes generalizing candidate with
  | nil => cases candidate <;> rfl
  | cons route rest ih =>
    by_cases hm : route.Matches dst
    · have hf : (route :: rest).filter (·.Matches dst) = route :: rest.filter (·.Matches dst) :=
        List.filter_cons_of_pos (by simpa using hm)
      rw [hf, List.foldl_cons]
      unfold IpRoute.Matches at hm
      cases candidate with
      | none => simp only [ipRouteLookupLoop, hm, if_true, ih, List.argAux]
      | some c =>
        by_cases hlt : c.key < route.key
        · have hlt' : ntoh32 .little c.netmask < ntoh32 .little route.netmask := hlt
          simp only [ipRouteLookupLoop, hm, if_true, hlt', ih, List.argAux, hlt]
        · have hlt' : ¬ ntoh32 .little c.netmask < ntoh32 .little route.netmask := hlt
          simp only [ipRouteLookupLoop, hm, if_true, hlt', if_false, ih, List.argAux, hlt]
    · have hf : (route :: rest).filter (·.Matches dst) = rest.filter (·.Matches dst) :=
        List.filter_cons_of_neg (by simpa using hm)
      rw [hf]
      unfold IpRoute.Matches at hm
      cases candidate with
      | none => simp only [ipRouteLookupLoop, hm, if_false, ih]
      | some c => simp only [ipRouteLookupLoop, hm, if_false, ih]

theorem ipRouteLookup_eq (routes : List IpRoute) (dst : IPAddress) :
    ipRouteLookup routes dst = (routes.filter (·.Matches dst)).argmax IpRoute.key :=
  ipRouteLookupLoop_eq dst none routes

theorem ipRouteLookup_none {routes : List IpRoute} {dst : IPAddress} :
    ipRouteLookup routes dst = none ↔ ∀ route ∈ routes, ¬ route.Matches dst := by
  rw [ipRouteLookup_eq, List.argmax_eq_none, List.filter_eq_nil_iff]
  simp

theorem ipRouteLookup_mem {routes : List IpRoute} {dst : IPAddress} {route : IpRoute}
    (h : ipRouteLookup routes dst = some route) : route ∈ routes ∧ route.Matches dst := by
  rw [ipRouteLookup_eq] at h
  have hmem := List.argmax_mem h
  rw [List.mem_filter] at hmem
  exact ⟨hmem.1, by simpa using hmem.2⟩

theorem ipRouteLookup_first {routes : List IpRoute} {dst : IPAddress} {route : IpRoute}
    (h : ipRouteLookup routes dst = some route) :
    ∃ pre post, routes = pre ++ route :: post ∧
      ∀ other ∈ pre, other.Matches dst → other.key < route.key := by
  rw [ipRouteLookup_eq] at h
  obtain ⟨fpre, fpost, hsplit, hlt⟩ := argmax_first h
  obtain ⟨pre, tail, rfl, rfl, htail⟩ := List.filter_eq_append_iff.mp hsplit
  obtain ⟨skipped, post, rfl, hskip, -, -⟩ := List.filter_eq_cons_iff.mp htail
  refine ⟨pre ++ skipped, post, by simp, fun other hother hm => ?_⟩
  rcases List.mem_append.mp hother with hin | hin
  · exact hlt other (List.mem_filter.mpr ⟨hin, by simpa using hm⟩)
  · exact absurd (by simpa using hm) (hskip other hin)

section Netmasks

variable {routes : List IpRoute} {dst : IPAddress} {route : IpRoute}
  (hmasks : ∀ route ∈ routes, IsNetmask route.netmask)

include hmasks

theorem ipRouteLookup_longest (h : ipRouteLookup routes dst = some route) {other : IpRoute}
    (hother : other ∈ routes) (hm : other.Matches dst) :
    prefixLength other.netmask ≤ prefixLength route.netmask := by
  have hroute := (ipRouteLookup_mem h).1
  rw [ipRouteLookup_eq] at h
  have hle := List.le_of_mem_argmax (List.mem_filter.mpr ⟨hother, by simpa using hm⟩) h
  have hlt := lt_iff_prefixLength (hmasks route hroute) (hmasks other hother)
  unfold IpRoute.key at hle
  omega

/-- Matching routes with one prefix length have one network and one netmask. -/
theorem IpRoute.Matches.pair {r₁ r₂ : IpRoute} (h₁ : r₁ ∈ routes) (h₂ : r₂ ∈ routes)
    (hm₁ : r₁.Matches dst) (hm₂ : r₂.Matches dst)
    (hlen : prefixLength r₁.netmask = prefixLength r₂.netmask) :
    r₁.network = r₂.network ∧ r₁.netmask = r₂.netmask := by
  have hmask : r₁.netmask = r₂.netmask := by
    rw [(hmasks r₁ h₁).eq.2, (hmasks r₂ h₂).eq.2, hlen]
  unfold IpRoute.Matches at hm₁ hm₂
  rw [← hm₁, ← hm₂, hmask]
  exact ⟨rfl, rfl⟩

theorem ipRouteLookup_perm (hdist : (routes.map fun r => (r.network, r.netmask)).Nodup)
    {routes' : List IpRoute} (hp : routes.Perm routes') :
    ipRouteLookup routes dst = ipRouteLookup routes' dst := by
  rw [ipRouteLookup_eq, ipRouteLookup_eq]
  refine argmax_perm (hp.filter _) fun r₁ h₁ r₂ h₂ hkey => ?_
  rw [List.mem_filter] at h₁ h₂
  have hm₁ : r₁.Matches dst := by simpa using h₁.2
  have hm₂ : r₂.Matches dst := by simpa using h₂.2
  have hlt := lt_iff_prefixLength (hmasks r₁ h₁.1) (hmasks r₂ h₂.1)
  have hgt := lt_iff_prefixLength (hmasks r₂ h₂.1) (hmasks r₁ h₁.1)
  unfold IpRoute.key at hkey
  obtain ⟨hnet, hmask⟩ := IpRoute.Matches.pair hmasks h₁.1 h₂.1 hm₁ hm₂ (by omega)
  exact List.inj_on_of_nodup_map hdist h₁.1 h₂.1 (by rw [hnet, hmask])

end Netmasks

/-! ## The table a run makes -/

def RouteAction.route (devices : Nat → NetworkDevice) : RouteAction → IpRoute
  | .registerInterface _ n iface =>
    ⟨iface.unicast &&& iface.netmask, iface.netmask, ipAddrAny,
      { iface with dev := (devices n).index }⟩
  | .setDefaultGateway _ iface gateway => ⟨ipAddrAny, ipAddrAny, gateway.getD ipAddrAny, iface⟩

def addedRoute (devices : Nat → NetworkDevice) (l : RouteAction × Int) : Option IpRoute :=
  if l.2 = 0 then some (l.1.route devices) else none

def addedRoutes (devices : Nat → NetworkDevice) (tr : List (RouteAction × Int)) : List IpRoute :=
  tr.filterMap (addedRoute devices)

theorem addedRoute_step {devices : Nat → NetworkDevice} {s s' : RouteSys} {l : RouteAction × Int}
    (hidx : ∀ n, (s.devices n).index = (devices n).index) (h : stepRel RouteSys.step s l s') :
    s'.tables.routes = (addedRoute devices l).toList ++ s.tables.routes ∧
      ∀ n, (s'.devices n).index = (devices n).index := by
  obtain ⟨action, ret⟩ := l
  cases action with
  | registerInterface alloc n iface =>
    simp only [stepRel, RouteSys.step, ipRegisterInterface] at h
    cases hadd : networkDeviceAddInterface (s.devices n) iface with
    | none =>
      rw [hadd] at h
      cases h
      exact ⟨rfl, by simpa using hidx⟩
    | some dev =>
      have hdev : dev.index = (devices n).index := by
        rw [networkDeviceAddInterface_index hadd, hidx]
      have hidx' : ∀ m, (Function.update s.devices n dev m).index = (devices m).index := by
        intro m
        by_cases hm : m = n
        · subst hm
          rw [Function.update_self, hdev]
        · rw [Function.update_of_ne hm, hidx]
      rw [hadd] at h
      cases alloc with
      | false =>
        cases h
        exact ⟨rfl, hidx'⟩
      | true =>
        cases h
        refine ⟨?_, hidx'⟩
        simp only [addedRoute, RouteAction.route, ← hdev]
        rfl
  | setDefaultGateway alloc iface gateway =>
    simp only [stepRel, RouteSys.step, ipSetDefaultGateway] at h
    cases gateway with
    | none => cases h; exact ⟨rfl, hidx⟩
    | some gw =>
      cases alloc with
      | false => cases h; exact ⟨rfl, hidx⟩
      | true => cases h; exact ⟨rfl, hidx⟩

theorem run_routes {devices : Nat → NetworkDevice} {tr : List (RouteAction × Int)} {s : RouteSys}
    (h : Run (stepRel RouteSys.step) (RouteSys.init devices) tr s) :
    s.tables.routes = (addedRoutes devices tr).reverse := by
  have hboth : s.tables.routes = (addedRoutes devices tr).reverse ∧
      ∀ n, (s.devices n).index = (devices n).index := by
    refine h.history (P := fun tr s => s.tables.routes = (addedRoutes devices tr).reverse ∧
      ∀ n, (s.devices n).index = (devices n).index) ⟨rfl, fun _ => rfl⟩ ?_
    rintro tr s l s' - ⟨hroutes, hidx⟩ hl
    obtain ⟨hstep, hidx'⟩ := addedRoute_step hidx hl
    refine ⟨?_, hidx'⟩
    have hone : [l].filterMap (addedRoute devices) = (addedRoute devices l).toList := by
      cases hadd : addedRoute devices l <;> simp [hadd]
    rw [hstep, hroutes]
    simp only [addedRoutes, List.filterMap_append, List.reverse_append, hone]
    cases addedRoute devices l <;> rfl
  exact hboth.1

/-- The netmask of the call is a prefix; a default gateway has no netmask of its own. -/
def RouteAction.PrefixMask : RouteAction → Prop
  | .registerInterface _ _ iface => IsNetmask iface.netmask
  | .setDefaultGateway _ _ _ => True

theorem addedRoutes_isNetmask (devices : Nat → NetworkDevice) {tr : List (RouteAction × Int)}
    (h : ∀ l ∈ tr, l.1.PrefixMask) : ∀ route ∈ addedRoutes devices tr, IsNetmask route.netmask := by
  intro route hroute
  obtain ⟨⟨action, ret⟩, hmem, hadd⟩ := List.mem_filterMap.mp hroute
  unfold addedRoute at hadd
  split at hadd
  · cases hadd
    cases action with
    | registerInterface alloc n iface => exact h _ hmem
    | setDefaultGateway alloc iface gateway => exact isNetmask_any
  · cases hadd

def IpInterface.Contains (iface : IpInterface) (dst : IPAddress) : Prop :=
  dst &&& iface.netmask = iface.unicast &&& iface.netmask

/-- What a lookup should find among routes that were added in the order of the list. -/
structure LongestPrefix (routes : List IpRoute) (dst : IPAddress) (found : Option IpRoute) :
    Prop where
  none_iff : found = none ↔ ∀ route ∈ routes, ¬ route.Matches dst
  longest : ∀ route, found = some route → route ∈ routes ∧ route.Matches dst ∧
    ∀ other ∈ routes, other.Matches dst → prefixLength other.netmask ≤ prefixLength route.netmask
  latest : ∀ route, found = some route → ∃ older newer, routes = older ++ route :: newer ∧
    ∀ other ∈ newer, ¬ (other.network = route.network ∧ other.netmask = route.netmask)

theorem longestPrefix_lookup {routes : List IpRoute}
    (hmasks : ∀ route ∈ routes, IsNetmask route.netmask) (dst : IPAddress) :
    LongestPrefix routes dst (ipRouteLookup routes.reverse dst) := by
  have hmasks' : ∀ route ∈ routes.reverse, IsNetmask route.netmask := by simpa using hmasks
  refine ⟨by rw [ipRouteLookup_none]; simp, fun route h => ?_, fun route h => ?_⟩
  · obtain ⟨hmem, hm⟩ := ipRouteLookup_mem h
    exact ⟨by simpa using hmem, hm, fun other hother hm' =>
      ipRouteLookup_longest hmasks' h (by simpa using hother) hm'⟩
  · have hm := (ipRouteLookup_mem h).2
    obtain ⟨pre, post, hsplit, hlt⟩ := ipRouteLookup_first h
    refine ⟨post.reverse, pre.reverse, ?_, fun other hother hpair => ?_⟩
    · rw [← List.reverse_reverse routes, hsplit]
      simp
    · -- the same pair matches as well, with the same key
      have hm' : other.Matches dst := by
        unfold IpRoute.Matches at hm ⊢
        rw [hpair.1, hpair.2, hm]
      have hkey := hlt other (by simpa using hother) hm'
      unfold IpRoute.key at hkey
      rw [hpair.2] at hkey
      omega

theorem LongestPrefix.eq_any {routes : List IpRoute} {dst : IPAddress} {found : Option IpRoute}
    (h : LongestPrefix routes dst found) {route other : IpRoute} (hfound : found = some route)
    (hany : route.netmask = ipAddrAny) (hmem : other ∈ routes) (hm : other.Matches dst)
    (hmask : IsNetmask other.netmask) : other.netmask = ipAddrAny := by
  have h0 : prefixLength ipAddrAny = 0 := by decide
  have hlen := (h.longest route hfound).2.2 other hmem hm
  rw [hany, h0, Nat.le_zero] at hlen
  have heq := hmask.eq.2
  rw [hlen] at heq
  rw [heq]
  decide

theorem mem_addedRoutes (devices : Nat → NetworkDevice) {tr : List (RouteAction × Int)}
    {a : RouteAction} (h : (a, (0 : Int)) ∈ tr) : a.route devices ∈ addedRoutes devices tr :=
  List.mem_filterMap.mpr ⟨_, h, rfl⟩

theorem same_call {devices : Nat → NetworkDevice} {tr : List (RouteAction × Int)}
    (hdist : ((addedRoutes devices tr).map fun r => (r.network, r.netmask)).Nodup)
    {a b : RouteAction} (ha : (a, (0 : Int)) ∈ tr) (hb : (b, (0 : Int)) ∈ tr)
    (hnet : (a.route devices).network = (b.route devices).network)
    (hmask : (a.route devices).netmask = (b.route devices).netmask) : a = b := by
  rw [List.Nodup, List.pairwise_map, addedRoutes, List.pairwise_filterMap] at hdist
  by_contra hne
  have : Std.Symm fun l l' : RouteAction × Int => ∀ r, addedRoute devices l = some r →
      ∀ r', addedRoute devices l' = some r' → (r.network, r.netmask) ≠ (r'.network, r'.netmask) :=
    ⟨fun l l' h r hr r' hr' heq => h r' hr' r hr heq.symm⟩
  refine hdist.forall ha hb (fun h => hne (congrArg Prod.fst h)) _ rfl _ rfl ?_
  rw [hnet, hmask]

/-- **Longest-prefix routing.** For every run of `ip_register_interface` and
`ip_set_default_gateway` calls with prefix netmasks, and every destination: the lookup finds the
longest and, among equal ones, latest matching route. If all routes differ in network or netmask, it
does not depend on their order, and takes a default route only for a destination in no interface's
subnet; in any case such a subnet would have to be everything. A destination in an interface's
subnet is routable. -/
theorem routes_longest_match (devices : Nat → NetworkDevice) {tr : List (RouteAction × Int)}
    {s : RouteSys} (h : Run (stepRel RouteSys.step) (RouteSys.init devices) tr s)
    (hmasks : ∀ l ∈ tr, l.1.PrefixMask) (dst : IPAddress) :
    LongestPrefix (addedRoutes devices tr) dst (ipRouteLookup s.tables.routes dst) ∧
    (((addedRoutes devices tr).map fun r => (r.network, r.netmask)).Nodup →
      (∀ devices' tr' s', Run (stepRel RouteSys.step) (RouteSys.init devices') tr' s' →
        (addedRoutes devices' tr').Perm (addedRoutes devices tr) →
        ipRouteLookup s'.tables.routes dst = ipRouteLookup s.tables.routes dst) ∧
      ∀ alloc gwIface gateway, (.setDefaultGateway alloc gwIface gateway, 0) ∈ tr →
        ipRouteLookup s.tables.routes dst =
          some (RouteAction.route devices (.setDefaultGateway alloc gwIface gateway)) →
        ∀ alloc n iface, (.registerInterface alloc n iface, 0) ∈ tr → ¬ iface.Contains dst) ∧
    (∀ alloc gwIface gateway, ipRouteLookup s.tables.routes dst =
        some (RouteAction.route devices (.setDefaultGateway alloc gwIface gateway)) →
      ∀ alloc n iface, (.registerInterface alloc n iface, 0) ∈ tr → iface.Contains dst →
        iface.netmask = ipAddrAny) ∧
    ∀ alloc n iface, (.registerInterface alloc n iface, 0) ∈ tr → iface.Contains dst →
      ipRouteLookup s.tables.routes dst ≠ none := by
  have hroutes := run_routes h
  have hnet := addedRoutes_isNetmask devices hmasks
  have hspec := longestPrefix_lookup hnet dst
  rw [← hroutes] at hspec
  have hzero : ∀ alloc gwIface gateway, ipRouteLookup s.tables.routes dst =
      some (RouteAction.route devices (.setDefaultGateway alloc gwIface gateway)) →
      ∀ alloc n iface, (.registerInterface alloc n iface, 0) ∈ tr → iface.Contains dst →
        iface.netmask = ipAddrAny := by
    intro alloc gwIface gateway hgw alloc' n iface hmem hin
    have hroute := mem_addedRoutes devices hmem
    exact hspec.eq_any hgw rfl hroute hin (hnet _ hroute)
  refine ⟨hspec, fun hdist => ⟨fun devices' tr' s' h' hp => ?_, ?_⟩, hzero, ?_⟩
  · rw [run_routes h', hroutes]
    refine (ipRouteLookup_perm (by simpa using hnet) ?_ ?_).symm
    · rw [List.map_reverse]
      exact List.nodup_reverse.mpr hdist
    · exact (List.reverse_perm _).trans (hp.symm.trans (List.reverse_perm _).symm)
  · intro alloc gwIface gateway hmem hgw alloc' n iface hmem' hin
    have hany := hzero alloc gwIface gateway hgw alloc' n iface hmem' hin
    have hsame := same_call hdist hmem hmem' (by
      simp only [RouteAction.route, hany, ipAddrAny, BitVec.and_zero]) (by
      simp only [RouteAction.route, hany])
    cases hsame
  · intro alloc n iface hmem hin hnone
    exact hspec.none_iff.mp hnone _ (mem_addedRoutes devices hmem) hin

/-- A loopback and an Ethernet interface with a default gateway. -/
def threeRoutes : List RouteAction :=
  [.registerInterface true 0
      ⟨networkInterfaceFamilyIp, 0, 0x0100007f#32, 0x000000ff#32, 0xffffff7f#32⟩,
    .registerInterface true 1
      ⟨networkInterfaceFamilyIp, 0, 0x020200c0#32, 0x00ffffff#32, 0xff0200c0#32⟩,
    .setDefaultGateway true
      ⟨networkInterfaceFamilyIp, 1, 0x020200c0#32, 0x00ffffff#32, 0xff0200c0#32⟩
      (some 0x010200c0#32)]

def twoDevices (n : Nat) : NetworkDevice :=
  ⟨[], n, 0, 0, 0, etherAddrAny, etherAddrBroadcast, .etherTransmit⟩

/-- 192.0.2.77 is reached directly, 10.0.0.1 by the gateway. -/
theorem threeRoutes_looked_up : ∃ tr s,
    Run (stepRel RouteSys.step) (RouteSys.init twoDevices) tr s ∧ tr.map Prod.fst = threeRoutes ∧
      LongestPrefix (addedRoutes twoDevices tr) 0x4d0200c0#32
        (ipRouteLookup s.tables.routes 0x4d0200c0#32) ∧
      (ipRouteLookup s.tables.routes 0x4d0200c0#32).map (·.nexthop) = some ipAddrAny ∧
      (ipRouteLookup s.tables.routes 0x0100000a#32).map (·.nexthop) = some 0x010200c0#32 := by
  obtain ⟨tr, s, hrun, hmap, hcheck⟩ := exec_check RouteSys.step (RouteSys.init twoDevices)
    threeRoutes (fun r => decide
      ((ipRouteLookup r.2.tables.routes 0x4d0200c0#32).map (·.nexthop) = some ipAddrAny ∧
        (ipRouteLookup r.2.tables.routes 0x0100000a#32).map (·.nexthop) = some 0x010200c0#32))
    (by decide +kernel)
  have hmasks : ∀ l ∈ tr, l.1.PrefixMask := by
    have hall : ∀ a ∈ threeRoutes, a.PrefixMask := by
      simp only [threeRoutes, List.forall_mem_cons, List.not_mem_nil, false_implies, implies_true,
        and_true]
      exact ⟨⟨8, by decide, by decide⟩, ⟨24, by decide, by decide⟩, trivial⟩
    intro l hl
    exact hall l.1 (by rw [← hmap]; exact List.mem_map_of_mem hl)
  exact ⟨tr, s, hrun, hmap, (routes_longest_match twoDevices hrun hmasks 0x4d0200c0#32).1,
    of_decide_eq_true hcheck⟩

end LLNStack
