import TuxOnIceFastboot.Cluster.Node
import TuxOnIceFastboot.Lib.Threads

/-!
# The member lists refine tables of peers

A node's member list, with `peer_count` and `ignored_peer_count`, stands for a table of the
peers the node has heard: per address, the last message it recorded, and whether one of the
messages it recorded from that peer was a `NACK` of a request. `add_update_member` keeps the
list a table (one member per address, the counters exact) and records the message in it. So
over any run of the cluster, every local node's table is the one of the messages it accepted,
in order: no message is lost, none counted twice, and nothing is ever taken out of the table,
since the code never calls `del_member` or `reset_ignored`. `time_to_continue` then reads as a
statement about that table.

The table is keyed by the low 32 bits of `SADDR` (the `__be32 addr` of `add_update_member`), while
`toi_recv` knows a node's own packets by the whole `unsigned long`: a node comes to list itself
only from a packet whose `SADDR` does not fit in 32 bits (`recv_lists_own_address`).
-/

namespace TuxOnIceFastboot.Cluster

open Lib

/-! ### The table of peers -/

/-- What a node knows of its peers: per address, the last message it recorded and whether one
of the messages it recorded from that peer was a `NACK` of a request. -/
abbrev PeerTable := Nat → Option (UInt16 × Bool)

/-- A message recorded from `addr`. -/
def PeerTable.record (t : PeerTable) (addr : Nat) (message : UInt16) : PeerTable :=
  Function.update t addr (some (message, ((t addr).map Prod.snd).getD false || nacks message))

/-- The messages of `log`, recorded in order into `t`. -/
def PeerTable.recordAll (t : PeerTable) (log : List (Nat × UInt16)) : PeerTable :=
  log.foldl (fun t e => t.record e.1 e.2) t

/-- What a log says of each peer: its last message, and whether one of its messages was a
`NACK` of a request; nothing for a peer the log does not hold. -/
def PeerTable.ofLog (log : List (Nat × UInt16)) : PeerTable := fun addr =>
  let ms := (log.filter fun e => e.1 = addr).map Prod.snd
  ms.getLast?.map fun m => (m, ms.any nacks)

@[simp] theorem PeerTable.recordAll_nil (t : PeerTable) : t.recordAll [] = t := rfl

@[simp] theorem PeerTable.recordAll_cons (t : PeerTable) (addr : Nat) (message : UInt16)
    (log : List (Nat × UInt16)) :
    t.recordAll ((addr, message) :: log) = (t.record addr message).recordAll log := rfl

theorem PeerTable.recordAll_append (t : PeerTable) (log log' : List (Nat × UInt16)) :
    t.recordAll (log ++ log') = (t.recordAll log).recordAll log' := List.foldl_append

theorem PeerTable.ofLog_concat (log : List (Nat × UInt16)) (addr : Nat) (message : UInt16) :
    PeerTable.ofLog (log ++ [(addr, message)]) = (PeerTable.ofLog log).record addr message := by
  funext j
  unfold PeerTable.record
  by_cases hj : j = addr
  · subst hj
    rw [Function.update_self]
    simp only [PeerTable.ofLog, List.filter_append, List.filter_singleton, decide_true, cond_true,
      List.map_append, List.map_cons, List.map_nil, List.getLast?_concat, List.any_append,
      List.any_cons, List.any_nil, Bool.or_false, Option.map_some]
    -- the flag so far is `any` over the messages so far: `false` when there are none
    cases hms : ((log.filter fun e => e.1 = j).map Prod.snd).getLast? with
    | none => rw [List.getLast?_eq_none_iff.mp hms]; rfl
    | some m => rfl
  · rw [Function.update_of_ne hj]
    simp [PeerTable.ofLog, List.filter_append, Ne.symm hj]

theorem PeerTable.recordAll_ofLog (log : List (Nat × UInt16)) :
    ∀ log' : List (Nat × UInt16),
      (PeerTable.ofLog log).recordAll log' = PeerTable.ofLog (log ++ log')
  | [] => by rw [List.append_nil]; rfl
  | (addr, message) :: log' => by
    rw [PeerTable.recordAll_cons, ← ofLog_concat, recordAll_ofLog _ log', List.append_assoc,
      List.singleton_append]

/-- The table a node's member list stands for. -/
def NodeInfo.table (node : NodeInfo) : PeerTable :=
  fun addr => (findMember node addr).map fun m => (m.message, m.ignore)

@[simp] theorem NodeInfo.table_setCurrentMessage (node : NodeInfo) (c : UInt16) :
    { node with currentMessage := c }.table = node.table := rfl

theorem NodeInfo.table_init (c : UInt16) : (NodeInfo.init c).table = PeerTable.ofLog [] := rfl

/-- The member list is a table with its counters: one member per address, `peer_count` the
members, `ignored_peer_count` the ignored ones, and a member whose last message is a `NACK` of
a request ignored. -/
structure MemberInv (node : NodeInfo) : Prop where
  nodup : (node.memberList.map ClusterMember.addr).Nodup
  peerCount : node.peerCount = node.memberList.length
  ignoredPeerCount : node.ignoredPeerCount = node.memberList.countP ClusterMember.ignore
  nacked : ∀ m ∈ node.memberList, nacks m.message = true → m.ignore = true

theorem MemberInv.init (c : UInt16) : MemberInv (NodeInfo.init c) :=
  ⟨List.nodup_nil, rfl, rfl, fun _ h => by cases h⟩

theorem MemberInv.setCurrentMessage {node : NodeInfo} (h : MemberInv node) (c : UInt16) :
    MemberInv { node with currentMessage := c } :=
  ⟨h.nodup, h.peerCount, h.ignoredPeerCount, h.nacked⟩

theorem MemberInv.forall_mem_iff {node : NodeInfo} (h : MemberInv node) (P : UInt16 → Bool → Prop) :
    (∀ m ∈ node.memberList, P m.message m.ignore) ↔
      ∀ addr m b, node.table addr = some (m, b) → P m b := by
  constructor
  · intro hall addr m b ht
    obtain ⟨x, hx, hxm⟩ := Option.map_eq_some_iff.mp ht
    obtain ⟨rfl, rfl⟩ := Prod.mk.injEq _ _ _ _ ▸ hxm
    exact hall x (mem_of_findKey hx)
  · intro hall m hm
    exact hall m.addr m.message m.ignore (by rw [NodeInfo.table, findMember, findKey_of_mem h.nodup hm]; rfl)

/-! ### One message -/

section Step

variable {allocOk : Bool} {addr : Nat} {message : UInt16} {node : NodeInfo}

theorem updateMember_eq (message : UInt16) (this : ClusterMember) :
    updateMember message this =
      (⟨this.addr, message, this.ignore || (this.message != message && nacks message)⟩,
        !this.ignore && (this.message != message && nacks message)) := by
  obtain ⟨a, m, ig⟩ := this
  unfold updateMember setIgnore
  by_cases hm : m = message
  · subst hm
    simp
  · cases nacks message <;> cases ig <;> simp [hm]

@[simp] theorem updateMember_addr (message : UInt16) (this : ClusterMember) :
    (updateMember message this).1.addr = this.addr := by
  rw [updateMember_eq]

@[simp] theorem updateMember_message (message : UInt16) (this : ClusterMember) :
    (updateMember message this).1.message = message := by
  rw [updateMember_eq]

theorem updateMember_ignore {this : ClusterMember}
    (hn : nacks this.message = true → this.ignore = true) :
    (updateMember message this).1.ignore = (this.ignore || nacks message) := by
  rw [updateMember_eq]
  by_cases hm : this.message = message
  · subst hm
    cases hi : this.ignore <;> simp_all
  · rw [bne_iff_ne.mpr hm, Bool.true_and]

/-- A peer `add_update_member` records: a known one, or a new one it has memory for. -/
def recordsFrom (allocOk : Bool) (addr : Nat) (node : NodeInfo) : Bool :=
  (findMember node addr).isSome || allocOk

theorem addUpdateMember_of_found {this : ClusterMember} (hfind : findMember node addr = some this) :
    addUpdateMember allocOk addr message node =
      (0, { node with
        memberList := updateKey ClusterMember.addr addr (fun m => (updateMember message m).1)
          node.memberList
        ignoredPeerCount :=
          if (updateMember message this).2 then node.ignoredPeerCount + 1
          else node.ignoredPeerCount }) := by
  simp only [addUpdateMember, hfind]

theorem addUpdateMember_of_new (hfind : findMember node addr = none) :
    addUpdateMember true addr message node =
      (1, { node with
        memberList := node.memberList ++ [⟨addr, message, nacks message⟩]
        peerCount := node.peerCount + 1
        ignoredPeerCount :=
          if nacks message then node.ignoredPeerCount + 1 else node.ignoredPeerCount }) := by
  cases hn : nacks message <;> simp [addUpdateMember, hfind, setIgnore, hn]

theorem addUpdateMember_of_not_recordsFrom (h : recordsFrom allocOk addr node = false) :
    addUpdateMember allocOk addr message node = (-1, node) := by
  cases hfind : findMember node addr with
  | some this => simp [recordsFrom, hfind] at h
  | none =>
    simp only [recordsFrom, hfind, Option.isSome_none, Bool.false_or] at h
    simp [addUpdateMember, hfind, h]

theorem memberInv_addUpdateMember (h : MemberInv node) :
    MemberInv (addUpdateMember allocOk addr message node).2 := by
  cases hfind : findMember node addr with
  | some this =>
    rw [addUpdateMember_of_found hfind]
    have hcount := @countP_updateKey ClusterMember Nat _ ClusterMember.addr addr node.memberList
      this (fun m => (updateMember message m).1) ClusterMember.ignore hfind
    have hthis : this ∈ node.memberList := mem_of_findKey hfind
    refine ⟨?nodup, ?peers, ?ignored, ?nacked⟩
    case nodup =>
      rw [map_key_updateKey (updateMember_addr message)]
      exact h.nodup
    case peers =>
      rw [length_updateKey]
      exact h.peerCount
    case ignored =>
      -- `set_ignore` counts the member exactly when it becomes ignored
      dsimp only
      rw [h.ignoredPeerCount, updateMember_eq]
      rw [updateMember_eq message this] at hcount
      generalize this.ignore = b at hcount ⊢
      generalize (this.message != message && nacks message) = n at hcount ⊢
      cases b <;> cases n <;> simp at hcount ⊢ <;> omega
    case nacked =>
      intro m hm hn
      rcases mem_updateKey hm with hm | ⟨z, hz, rfl⟩
      · exact h.nacked m hm hn
      · rw [updateMember_message] at hn
        rw [updateMember_ignore (h.nacked z hz), hn, Bool.or_true]
  | none =>
    cases allocOk
    · rw [addUpdateMember_of_not_recordsFrom (by simp [recordsFrom, hfind])]
      exact h
    · rw [addUpdateMember_of_new hfind]
      have hnew : addr ∉ node.memberList.map ClusterMember.addr := findKey_eq_none_iff.mp hfind
      refine ⟨?nodup, ?peers, ?ignored, ?nacked⟩
      case nodup => exact nodup_map_append_singleton h.nodup hnew
      case peers => simp [h.peerCount]
      case ignored =>
        dsimp only
        rw [h.ignoredPeerCount, List.countP_append]
        cases nacks message <;> simp
      case nacked =>
        intro m hm hn
        rcases List.mem_append.mp hm with hm | hm
        · exact h.nacked m hm hn
        · rw [List.mem_singleton] at hm
          subst hm
          exact hn

theorem table_addUpdateMember (h : MemberInv node) :
    (addUpdateMember allocOk addr message node).2.table =
      if recordsFrom allocOk addr node then node.table.record addr message else node.table := by
  cases hrec : recordsFrom allocOk addr node
  · rw [addUpdateMember_of_not_recordsFrom hrec]
    rfl
  funext j
  rw [if_pos rfl, PeerTable.record]
  cases hfind : findMember node addr with
  | some this =>
    have hfind' : findKey ClusterMember.addr addr node.memberList = some this := hfind
    have hign : (updateMember message this).1.ignore = (this.ignore || nacks message) :=
      updateMember_ignore (h.nacked this (mem_of_findKey hfind'))
    rw [addUpdateMember_of_found hfind]
    show (findKey _ j (updateKey _ addr _ node.memberList)).map _ = _
    rw [findKey_updateKey (updateMember_addr message)]
    by_cases hj : j = addr
    · subst hj
      simp [hfind', hign, NodeInfo.table, findMember]
    · rw [if_neg hj, Function.update_of_ne hj]
      rfl
  | none =>
    have hfind' : findKey ClusterMember.addr addr node.memberList = none := hfind
    have hok : allocOk = true := by simpa [recordsFrom, hfind] using hrec
    subst hok
    rw [addUpdateMember_of_new hfind]
    show (findKey _ j (node.memberList ++ [_])).map _ = _
    rw [findKey_append_singleton]
    by_cases hj : j = addr
    · subst hj
      simp [hfind', NodeInfo.table, findMember]
    · rw [Function.update_of_ne hj, if_neg (Ne.symm hj), Option.or_none]
      rfl

theorem not_mem_addUpdateMember {j : Nat} (hj : j ≠ addr)
    (h : j ∉ node.memberList.map ClusterMember.addr) :
    j ∉ (addUpdateMember allocOk addr message node).2.memberList.map ClusterMember.addr := by
  cases hfind : findMember node addr with
  | some this =>
    rw [addUpdateMember_of_found hfind]
    show j ∉ (updateKey _ _ _ _).map _
    rw [map_key_updateKey (updateMember_addr message)]
    exact h
  | none =>
    cases allocOk
    · rw [addUpdateMember_of_not_recordsFrom (by simp [recordsFrom, hfind])]
      exact h
    · rw [addUpdateMember_of_new hfind]
      simpa [hj] using h

end Step

/-! ### One packet at one node -/

section Node

variable {allocOk : Bool} {pkt : ToiPkt} {index : Nat} {node : NodeInfo}

/-- Whether node `index` records a packet: it is not the node's own, the node is online, and
`add_update_member` records its sender. -/
def recvAccepts (allocOk : Bool) (pkt : ToiPkt) (index : Nat) (node : NodeInfo) : Bool :=
  !(index = pkt.saddr || node.currentMessage == 0) && recordsFrom allocOk pkt.addr node

theorem recvNode_fst (allocOk : Bool) (pkt : ToiPkt) (index : Nat) (node : NodeInfo) :
    ∃ c, (recvNode allocOk pkt index node).1 =
      { (if index = pkt.saddr || node.currentMessage == 0 then node
         else (addUpdateMember allocOk pkt.addr pkt.message node).2) with currentMessage := c } := by
  unfold recvNode
  by_cases hskip : (index = pkt.saddr || node.currentMessage == 0) = true
  · rw [if_pos hskip, if_pos hskip]
    exact ⟨node.currentMessage, rfl⟩
  · rw [if_neg hskip, if_neg hskip]
    dsimp only
    split_ifs <;> exact ⟨_, rfl⟩

theorem memberInv_recvNode (h : MemberInv node) : MemberInv (recvNode allocOk pkt index node).1 := by
  obtain ⟨c, hc⟩ := recvNode_fst allocOk pkt index node
  rw [hc]
  apply MemberInv.setCurrentMessage
  split
  · exact h
  · exact memberInv_addUpdateMember h

theorem table_recvNode (h : MemberInv node) :
    (recvNode allocOk pkt index node).1.table =
      if recvAccepts allocOk pkt index node then node.table.record pkt.addr pkt.message
      else node.table := by
  obtain ⟨c, hc⟩ := recvNode_fst allocOk pkt index node
  rw [hc, NodeInfo.table_setCurrentMessage, recvAccepts]
  by_cases hskip : (index = pkt.saddr || node.currentMessage == 0) = true
  · simp only [hskip, if_true, Bool.not_true, Bool.false_and, Bool.false_eq_true, if_false]
  · simp only [hskip, Bool.false_eq_true, if_false, Bool.not_false, Bool.true_and]
    exact table_addUpdateMember h

theorem not_mem_recvNode (h : index ∉ node.memberList.map ClusterMember.addr)
    (hfit : pkt.saddr < 2 ^ 32) :
    index ∉ (recvNode allocOk pkt index node).1.memberList.map ClusterMember.addr := by
  obtain ⟨c, hc⟩ := recvNode_fst allocOk pkt index node
  rw [hc]
  split
  · exact h
  · next hskip =>
    have hne : index ≠ pkt.addr := by
      rw [ToiPkt.addr_of_lt hfit]
      intro he
      simp [he] at hskip
    exact not_mem_addUpdateMember hne h

end Node

/-! ### The cluster -/

section Run

/-- What happens in the cluster: `toi_recv` on a packet (`allocOk` telling each local node's
`toi_kzalloc`), or a write of a node's `current_message`: by `kTOICluster` as it starts, by the
hibernation code, or by `kill_clusterd`. -/
inductive ClusterEvent
  | recv (allocOk : Nat → Bool) (pkt : ToiPkt)
  | setMessage (index : Nat) (message : UInt16)

/-- The local nodes after an event. -/
def ClusterEvent.apply (numLocalNodes : Nat) : ClusterEvent → List NodeInfo → List NodeInfo
  | .recv allocOk pkt, nodes => (toiRecv numLocalNodes allocOk pkt nodes).1
  | .setMessage index message, nodes =>
    nodes.modify index fun node => { node with currentMessage := message }

/-- The local nodes after a run. -/
def clusterRun (numLocalNodes : Nat) (events : List ClusterEvent) (nodes : List NodeInfo) :
    List NodeInfo :=
  events.foldl (fun nodes e => e.apply numLocalNodes nodes) nodes

/-- Node `i` after an event. -/
def ClusterEvent.atNode (i : Nat) : ClusterEvent → NodeInfo → NodeInfo
  | .recv allocOk pkt, node => (recvNode (allocOk i) pkt i node).1
  | .setMessage index message, node =>
    if index = i then { node with currentMessage := message } else node

/-- What node `i` records of an event: the sender and message of a packet it accepts. -/
def ClusterEvent.logAt (i : Nat) : ClusterEvent → NodeInfo → List (Nat × UInt16)
  | .recv allocOk pkt, node =>
    if recvAccepts (allocOk i) pkt i node then [(pkt.addr, pkt.message)] else []
  | .setMessage _ _, _ => []

/-- Node `i` along a run. -/
def nodeRun (i : Nat) (events : List ClusterEvent) (node : NodeInfo) : NodeInfo :=
  events.foldl (fun node e => e.atNode i node) node

/-- The senders and messages node `i` records along a run, in order. -/
def nodeLog (i : Nat) : List ClusterEvent → NodeInfo → List (Nat × UInt16)
  | [], _ => []
  | e :: es, node => e.logAt i node ++ nodeLog i es (e.atNode i node)

theorem toiRecv_getElem? (numLocalNodes : Nat) (allocOk : Nat → Bool) (pkt : ToiPkt)
    (nodes : List NodeInfo) (i : Nat) :
    (toiRecv numLocalNodes allocOk pkt nodes).1[i]? =
      if i < numLocalNodes then nodes[i]?.map fun node => (recvNode (allocOk i) pkt i node).1
      else nodes[i]? := by
  unfold toiRecv
  rw [getElem?_foldl_set (fun i node => (recvNode (allocOk i) pkt i node).1) ?step _
    List.nodup_range]
  · simp only [List.mem_range]
  case step =>
    intro acc j
    cases acc.1[j]? <;> rfl

theorem apply_getElem? {numLocalNodes i : Nat} (hi : i < numLocalNodes) (e : ClusterEvent)
    (nodes : List NodeInfo) :
    (e.apply numLocalNodes nodes)[i]? = nodes[i]?.map (e.atNode i) := by
  cases e with
  | recv allocOk pkt => rw [ClusterEvent.apply, toiRecv_getElem?, if_pos hi]; rfl
  | setMessage index message =>
    rw [ClusterEvent.apply, List.getElem?_modify]
    cases nodes[i]? <;> rfl

theorem clusterRun_getElem? {numLocalNodes i : Nat} (hi : i < numLocalNodes) :
    ∀ (events : List ClusterEvent) (nodes : List NodeInfo),
      (clusterRun numLocalNodes events nodes)[i]? = nodes[i]?.map (nodeRun i events)
  | [], nodes => by
    show nodes[i]? = _
    cases nodes[i]? <;> rfl
  | e :: es, nodes => by
    rw [clusterRun, List.foldl_cons, ← clusterRun, clusterRun_getElem? hi es, apply_getElem? hi]
    cases nodes[i]? <;> rfl

theorem nodeRun_table {i : Nat} :
    ∀ (events : List ClusterEvent) (node : NodeInfo), MemberInv node →
      MemberInv (nodeRun i events node) ∧
        (nodeRun i events node).table = node.table.recordAll (nodeLog i events node)
  | [], _, h => ⟨h, rfl⟩
  | e :: es, node, h => by
    -- one event keeps the invariant and records what `logAt` says
    have hstep : MemberInv (e.atNode i node) ∧
        (e.atNode i node).table = node.table.recordAll (e.logAt i node) := by
      cases e with
      | recv allocOk pkt =>
        refine ⟨memberInv_recvNode h, ?_⟩
        rw [ClusterEvent.atNode, table_recvNode h, ClusterEvent.logAt]
        split <;> rfl
      | setMessage index message =>
        rw [ClusterEvent.atNode]
        split
        · exact ⟨h.setCurrentMessage message, rfl⟩
        · exact ⟨h, rfl⟩
    obtain ⟨h', htable⟩ := nodeRun_table es (e.atNode i node) hstep.1
    refine ⟨h', ?_⟩
    rw [nodeRun, List.foldl_cons, ← nodeRun, htable, hstep.2, nodeLog,
      PeerTable.recordAll_append]

/-- A packet's `SADDR` fits in 32 bits: always outside loopback mode, where it is the IPv4 source
address. -/
def ClusterEvent.Saddr32 : ClusterEvent → Prop
  | .recv _ pkt => pkt.saddr < 2 ^ 32
  | .setMessage _ _ => True

theorem nodeRun_not_mem_self {i : Nat} :
    ∀ (events : List ClusterEvent) (node : NodeInfo), (∀ e ∈ events, e.Saddr32) →
      i ∉ node.memberList.map ClusterMember.addr →
      i ∉ (nodeRun i events node).memberList.map ClusterMember.addr
  | [], _, _, hself => hself
  | e :: es, node, hfits, hself => by
    have hstep : i ∉ (e.atNode i node).memberList.map ClusterMember.addr := by
      cases e with
      | recv allocOk pkt => exact not_mem_recvNode hself (hfits _ List.mem_cons_self)
      | setMessage index message =>
        rw [ClusterEvent.atNode]
        split <;> exact hself
    exact nodeRun_not_mem_self es _ (fun e he => hfits e (List.mem_cons_of_mem _ he)) hstep

theorem clusterRun_init {numLocalNodes i : Nat} (hi : i < numLocalNodes) {messages : List UInt16}
    {c : UInt16} (hc : messages[i]? = some c) (events : List ClusterEvent) :
    ∃ node, (clusterRun numLocalNodes events (messages.map NodeInfo.init))[i]? = some node ∧
      MemberInv node ∧
      ((∀ e ∈ events, e.Saddr32) → i ∉ node.memberList.map ClusterMember.addr) ∧
      node.table = PeerTable.ofLog (nodeLog i events (NodeInfo.init c)) := by
  obtain ⟨h, htable⟩ := nodeRun_table events (NodeInfo.init c) (MemberInv.init c)
  refine ⟨_, ?_, h, fun hfits => nodeRun_not_mem_self events _ hfits List.not_mem_nil, ?_⟩
  · rw [clusterRun_getElem? hi, List.getElem?_map, hc]
    rfl
  · rw [htable, NodeInfo.table_init, PeerTable.recordAll_ofLog, List.nil_append]

/-- Over any run of the cluster from the nodes `toi_cluster_init` leaves, every local
node's member list is a table with exact counters, keyed by the low 32 bits of `SADDR`, that
never lists the node itself while every `SADDR` fits in 32 bits; and its entry for each peer is
the last message the node accepted from that peer, flagged ignored when one of them was a `NACK`
of a request: no message is lost, none counted twice, and no peer once heard is taken out. -/
theorem member_lists_refine_peer_tables (numLocalNodes : Nat) (messages : List UInt16)
    (events : List ClusterEvent) (i : Nat) (hi : i < numLocalNodes) (c : UInt16)
    (hc : messages[i]? = some c) :
    ∃ node, (clusterRun numLocalNodes events (messages.map NodeInfo.init))[i]? = some node ∧
      MemberInv node ∧
      ((∀ e ∈ events, e.Saddr32) → i ∉ node.memberList.map ClusterMember.addr) ∧
      node.table = PeerTable.ofLog (nodeLog i events (NodeInfo.init c)) :=
  clusterRun_init hi hc events

/-- Node 0 asks to hibernate; node 1, odd, refuses, and node 2 agrees. -/
def hibernateRound : List ClusterEvent :=
  [.recv (fun _ => true) ⟨msgHibernate, 0⟩, .recv (fun _ => true) ⟨msgHibernate ||| msgNack, 1⟩,
    .recv (fun _ => true) ⟨msgHibernate ||| msgAck, 2⟩]

/-- After the round node 0 ignores node 1, which refused, and holds node 2's answer. -/
theorem member_lists_hibernate_round :
    0 < 3 ∧ [msgHibernate, msgRunning, msgRunning][0]? = some msgHibernate ∧
      ∃ node, (clusterRun 3 hibernateRound
          ([msgHibernate, msgRunning, msgRunning].map NodeInfo.init))[0]? = some node ∧
        node.table 1 = some (msgHibernate ||| msgNack, true) ∧
        node.table 2 = some (msgHibernate ||| msgAck, false) := by
  obtain ⟨node, hnode, -, -, htable⟩ := member_lists_refine_peer_tables 3
    [msgHibernate, msgRunning, msgRunning] hibernateRound 0 (by decide) msgHibernate rfl
  refine ⟨by decide, rfl, node, hnode, ?_, ?_⟩ <;> rw [htable] <;> decide

end Run

/-! ### Deciding to move on -/

section Continue

variable {node : NodeInfo}

theorem peersInMessage_eq (h : MemberInv node) (message : UInt16) (precise : Bool) :
    peersInMessage node message precise =
      node.memberList.countP fun m =>
        !m.ignore && (if precise then m.message else m.message &&& msgStateMask) == message := by
  have hsplit := countP_and_add_countP_and_not (fun m : ClusterMember => !m.ignore)
    (fun m => (if precise then m.message else m.message &&& msgStateMask) == message)
    node.memberList
  have hall := @List.length_eq_countP_add_countP _ ClusterMember.ignore node.memberList
  have hnot : node.memberList.countP (fun m => decide ¬m.ignore = true) =
      node.memberList.countP fun m => !m.ignore := List.countP_congr (by simp)
  unfold peersInMessage peersNotInMessage notInMessage
  rw [h.peerCount, h.ignoredPeerCount]
  simp only [bne] at hsplit ⊢
  omega

theorem timeToContinue_iff (h : MemberInv node) (a : Arch) (continueDelay jiffies start : Nat)
    (message : UInt16) :
    timeToContinue a continueDelay jiffies start node message = true ↔
      (∀ m ∈ node.memberList, m.ignore = false →
        m.message &&& msgStateMask = message ∧ m.message ≠ message) ∨
      timeAfter a jiffies (toUnsigned a.longBits (start + continueDelay)) = true := by
  have hfirst : peersNotInMessage node message false = 0 ↔
      ∀ m ∈ node.memberList, m.ignore = false → m.message &&& msgStateMask = message := by
    unfold peersNotInMessage notInMessage
    simp [List.countP_eq_zero]
  have hsecond : peersInMessage node message true = 0 ↔
      ∀ m ∈ node.memberList, m.ignore = false → m.message ≠ message := by
    rw [peersInMessage_eq h]
    simp [List.countP_eq_zero]
  unfold timeToContinue
  dsimp only
  by_cases hboth : peersNotInMessage node message false = 0 ∧ peersInMessage node message true = 0
  · rw [if_pos (by simpa using hboth)]
    simp only [true_iff]
    left
    intro m hm hig
    exact ⟨hfirst.mp hboth.1 m hm hig, hsecond.mp hboth.2 m hm hig⟩
  · rw [if_neg (by simpa using hboth)]
    -- without the answers, only the delay lets the node go on
    have hnot : ¬∀ m ∈ node.memberList, m.ignore = false →
        m.message &&& msgStateMask = message ∧ m.message ≠ message := by
      intro hall
      exact hboth ⟨hfirst.mpr fun m hm hig => (hall m hm hig).1,
        hsecond.mpr fun m hm hig => (hall m hm hig).2⟩
    simp [hnot]

/-- Over any run of the cluster, before the delay a local node goes on exactly when every peer
it has heard and that never refused a request last sent an answer to `message`: the message's
state with a reply bit. A peer that said `MSG_BYE` stays in the table, and holds the node until
the delay. -/
theorem time_to_continue_waits_for_answers (a : Arch) (numLocalNodes : Nat)
    (messages : List UInt16) (events : List ClusterEvent) (i : Nat) (hi : i < numLocalNodes)
    (c : UInt16) (hc : messages[i]? = some c) (node : NodeInfo)
    (hnode : (clusterRun numLocalNodes events (messages.map NodeInfo.init))[i]? = some node)
    (continueDelay jiffies start : Nat) (message : UInt16) :
    timeToContinue a continueDelay jiffies start node message = true ↔
      (∀ addr m, PeerTable.ofLog (nodeLog i events (NodeInfo.init c)) addr = some (m, false) →
        m &&& msgStateMask = message ∧ m ≠ message) ∨
      timeAfter a jiffies (toUnsigned a.longBits (start + continueDelay)) = true := by
  obtain ⟨node', hnode', h, -, htable⟩ := clusterRun_init hi hc events
  obtain rfl : node = node' := Option.some.inj (hnode.symm.trans hnode')
  rw [timeToContinue_iff h, ← htable,
    h.forall_mem_iff fun m b => b = false → m &&& msgStateMask = message ∧ m ≠ message]
  simp

/-- Node 0 after the round, which goes on: the one peer it does not ignore has answered. -/
theorem time_to_continue_hibernate_round :
    0 < 3 ∧ [msgHibernate, msgRunning, msgRunning][0]? = some msgHibernate ∧
      (clusterRun 3 hibernateRound ([msgHibernate, msgRunning, msgRunning].map NodeInfo.init))[0]? =
        some ⟨[⟨1, msgHibernate ||| msgNack, true⟩, ⟨2, msgHibernate ||| msgAck, false⟩], 2, 1,
          msgHibernate ||| msgAck⟩ ∧
      timeToContinue Arch.x86_64 100 0 0
        ⟨[⟨1, msgHibernate ||| msgNack, true⟩, ⟨2, msgHibernate ||| msgAck, false⟩], 2, 1,
          msgHibernate ||| msgAck⟩ msgHibernate = true := by
  have hrun : (clusterRun 3 hibernateRound
      ([msgHibernate, msgRunning, msgRunning].map NodeInfo.init))[0]? =
        some ⟨[⟨1, msgHibernate ||| msgNack, true⟩, ⟨2, msgHibernate ||| msgAck, false⟩], 2, 1,
          msgHibernate ||| msgAck⟩ := by decide
  have hlog : nodeLog 0 hibernateRound (NodeInfo.init msgHibernate) =
      [(1, msgHibernate ||| msgNack), (2, msgHibernate ||| msgAck)] := by decide
  refine ⟨by decide, rfl, hrun, (time_to_continue_waits_for_answers Arch.x86_64 3 _ hibernateRound
    0 (by decide) msgHibernate rfl _ hrun 100 0 0 msgHibernate).mpr (Or.inl ?_)⟩
  intro addr m hm
  rw [hlog] at hm
  -- node 2 answered; node 1 refused, so is ignored; no other peer was heard
  by_cases h2 : addr = 2
  · subst h2
    obtain ⟨rfl, -⟩ : msgHibernate ||| msgAck = m ∧ _ := by simpa [PeerTable.ofLog] using hm
    decide
  by_cases h1 : addr = 1
  · subst h1
    have hn : msgHibernate ||| msgNack = m ∧ nacks (msgHibernate ||| msgNack) = false := by
      simpa [PeerTable.ofLog] using hm
    exact absurd hn.2 (by decide)
  simp [PeerTable.ofLog, List.filter, Ne.symm h1, Ne.symm h2] at hm

/-- Nothing takes a peer out of the member list, so a peer that said `MSG_BYE`, and never
refused a request, holds every local node that heard it until the delay, whatever the node
waits for. -/
theorem peer_bye_holds_until_delay (a : Arch) (numLocalNodes : Nat) (messages : List UInt16)
    (events : List ClusterEvent) (i : Nat) (hi : i < numLocalNodes) (c : UInt16)
    (hc : messages[i]? = some c) (node : NodeInfo)
    (hnode : (clusterRun numLocalNodes events (messages.map NodeInfo.init))[i]? = some node)
    (hbye : ∃ addr, PeerTable.ofLog (nodeLog i events (NodeInfo.init c)) addr = some (msgBye, false))
    (continueDelay jiffies start : Nat) (message : UInt16) :
    timeToContinue a continueDelay jiffies start node message =
      timeAfter a jiffies (toUnsigned a.longBits (start + continueDelay)) := by
  obtain ⟨node', hnode', h, -, htable⟩ := clusterRun_init hi hc events
  obtain rfl : node = node' := Option.some.inj (hnode.symm.trans hnode')
  obtain ⟨addr, hbye⟩ := hbye
  have hiff := timeToContinue_iff h a continueDelay jiffies start message
  -- `MSG_BYE` carries no reply bit, so it never answers a message
  have hnot : ¬∀ m ∈ node.memberList, m.ignore = false →
      m.message &&& msgStateMask = message ∧ m.message ≠ message := by
    rw [h.forall_mem_iff fun m b => b = false → m &&& msgStateMask = message ∧ m ≠ message]
    intro hall
    obtain ⟨hstate, hne⟩ := hall addr msgBye false (htable ▸ hbye) rfl
    exact hne ((show msgBye &&& msgStateMask = msgBye by decide).symm.trans hstate)
  cases ht : timeAfter a jiffies (toUnsigned a.longBits (start + continueDelay))
  · simpa [hnot, ht] using hiff
  · exact hiff.mpr (Or.inr ht)

/-- Node 1 says `MSG_BYE`; node 0 hears it and, before the delay, cannot go on. -/
theorem peer_bye_holds_two_nodes :
    0 < 2 ∧ [msgHibernate, msgRunning][0]? = some msgHibernate ∧
      (clusterRun 2 [.recv (fun _ => true) ⟨msgBye, 1⟩]
        ([msgHibernate, msgRunning].map NodeInfo.init))[0]? =
        some ⟨[⟨1, msgBye, false⟩], 1, 0, msgHibernate⟩ ∧
      (∃ addr, PeerTable.ofLog (nodeLog 0 [.recv (fun _ => true) ⟨msgBye, 1⟩]
        (NodeInfo.init msgHibernate)) addr = some (msgBye, false)) ∧
      timeToContinue Arch.x86_64 100 0 0 ⟨[⟨1, msgBye, false⟩], 1, 0, msgHibernate⟩ msgHibernate =
        false := by
  have hrun : (clusterRun 2 [.recv (fun _ => true) ⟨msgBye, 1⟩]
      ([msgHibernate, msgRunning].map NodeInfo.init))[0]? =
        some ⟨[⟨1, msgBye, false⟩], 1, 0, msgHibernate⟩ := by decide
  have hbye : ∃ addr, PeerTable.ofLog (nodeLog 0 [.recv (fun _ => true) ⟨msgBye, 1⟩]
      (NodeInfo.init msgHibernate)) addr = some (msgBye, false) := ⟨1, by decide⟩
  refine ⟨by decide, rfl, hrun, hbye, ?_⟩
  rw [peer_bye_holds_until_delay Arch.x86_64 2 _ _ 0 (by decide) msgHibernate rfl _ hrun hbye]
  decide

end Continue

end TuxOnIceFastboot.Cluster
