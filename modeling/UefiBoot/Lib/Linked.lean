import UefiBoot.Lib.ByteRange

/-!
# `Lib.Linked` — a list threaded through memory

Each node's first word points at the next node and the last one is null. `Linked m a nodes` says that the pointer
`a` starts such a list, and that its nodes are `nodes`; since the list is finite, it ends. Nodes are aligned words,
so a store at one of them does not touch another: `Linked.push` puts a node in front, `Linked.push_all` one after
another, and `Linked.congr` moves a list to memory that has the same words at its nodes.
-/

namespace Lib
namespace Bytes

/-- **The list that starts at `a`.** -/
def Linked (m : Bytes) (a : UInt64) : List UInt64 → Prop
  | []         => a = 0
  | b :: nodes => a = b ∧ b ≠ 0 ∧ m.Linked (m.load64 b) nodes

/-- `node->next = list; list = node;` -/
def pushNode (s : Bytes × UInt64) (node : UInt64) : Bytes × UInt64 := (s.1.store64 node s.2, node)

variable {m m' : Bytes} {a b : UInt64} {nodes others : List UInt64}

/-- Writing back what is there changes nothing. -/
theorem store_load (m : Bytes) (a : UInt64) (n : Nat) : m.store a (m.load a n) n = m := by
  induction n generalizing a with
  | zero => rfl
  | succ n ih =>
      unfold load store
      have hlow : UInt8.ofNat ((m a).toNat + 256 * m.load (a + 1) n) = m a := by
        apply UInt8.toNat_inj.mp
        have hlt := (m a).toNat_lt
        rw [UInt8.toNat_ofNat']
        omega
      have hhigh : ((m a).toNat + 256 * m.load (a + 1) n) / 256 = m.load (a + 1) n := by
        have hlt := (m a).toNat_lt
        omega
      rw [hlow, hhigh, Function.update_eq_self, ih]

/-- A node that is taken off a list and put back in front leaves memory as it was. -/
theorem store64_load64 (m : Bytes) (a : UInt64) : m.store64 a (m.load64 a) = m := by
  have hlt : ∀ n a, m.load a n < 256 ^ n := by
    intro n
    induction n with
    | zero => exact fun _ => Nat.one_pos
    | succ n ih =>
        intro a
        have hbyte := (m a).toNat_lt
        have hrest := ih (a + 1)
        unfold load
        rw [Nat.pow_succ]
        omega
  have hword : m.load a 8 < 2 ^ 64 := hlt 8 a
  unfold store64 load64
  rw [UInt64.toNat_ofNat', Nat.mod_eq_of_lt hword, store_load]

theorem linked_zero_iff : m.Linked 0 nodes ↔ nodes = [] := by
  cases nodes with
  | nil => exact iff_of_true rfl rfl
  | cons b nodes => exact iff_of_false (fun h => h.2.1 h.1.symm) (List.cons_ne_nil b nodes)

/-- A list that is not empty starts at its first node. -/
theorem Linked.pop (h : m.Linked a nodes) (ha : a ≠ 0) :
    ∃ rest, nodes = a :: rest ∧ m.Linked (m.load64 a) rest := by
  cases nodes with
  | nil => exact absurd h ha
  | cons b rest =>
      obtain ⟨rfl, -, hrest⟩ := h
      exact ⟨rest, rfl, hrest⟩

/-- A pointer starts one list at most. -/
theorem Linked.unique (h : m.Linked a nodes) (h' : m.Linked a others) : nodes = others := by
  induction nodes generalizing a others with
  | nil =>
      have hzero : a = 0 := h
      rw [hzero, linked_zero_iff] at h'
      exact h'.symm
  | cons b nodes ih =>
      obtain ⟨rfl, hne, hnext⟩ := h
      obtain ⟨rest, rfl, hrest⟩ := h'.pop hne
      rw [ih hnext hrest]

/-- Only the words at the nodes matter. -/
theorem Linked.congr (h : m.Linked a nodes) (hsame : ∀ b ∈ nodes, m'.load64 b = m.load64 b) :
    m'.Linked a nodes := by
  induction nodes generalizing a with
  | nil => exact h
  | cons b nodes ih =>
      obtain ⟨rfl, hne, hnext⟩ := h
      refine ⟨rfl, hne, ?_⟩
      rw [hsame a List.mem_cons_self]
      exact ih hnext fun c hc => hsame c (List.mem_cons_of_mem _ hc)

/-- A store at an aligned word that is no node. -/
theorem Linked.store64 (h : m.Linked a nodes) (hal : ∀ c ∈ nodes, c.toNat % 8 = 0) (hb : b.toNat % 8 = 0)
    (hnot : b ∉ nodes) (value : UInt64) : (m.store64 b value).Linked a nodes := by
  apply h.congr
  intro c hc
  rw [load64_store64_aligned hb (hal c hc), if_neg]
  rintro rfl
  exact hnot hc

theorem Linked.push (h : m.Linked a nodes) (hal : ∀ c ∈ nodes, c.toNat % 8 = 0) (hb : b.toNat % 8 = 0) (hne : b ≠ 0)
    (hnot : b ∉ nodes) : (m.store64 b a).Linked b (b :: nodes) := by
  refine ⟨rfl, hne, ?_⟩
  rw [load64_store64]
  exact h.store64 hal hb hnot a

/-- One node after another. -/
theorem Linked.push_all (h : m.Linked a nodes) (others : List UInt64) (hal : ∀ c ∈ others ++ nodes, c.toNat % 8 = 0)
    (hne : ∀ c ∈ others, c ≠ 0) (hnodup : (others ++ nodes).Nodup) :
    (others.foldl pushNode (m, a)).1.Linked (others.foldl pushNode (m, a)).2 (others.reverse ++ nodes) := by
  induction others generalizing m a nodes with
  | nil => exact h
  | cons b others ih =>
      have hfirst : (m.store64 b a).Linked b (b :: nodes) := by
        apply h.push
        · exact fun c hc => hal c (List.mem_append_right _ hc)
        · exact hal b (List.mem_append_left _ List.mem_cons_self)
        · exact hne b List.mem_cons_self
        · exact fun hb => (List.nodup_cons.mp hnodup).1 (List.mem_append_right _ hb)
      have hperm : (others ++ b :: nodes).Perm (b :: others ++ nodes) := List.perm_middle
      have hrest := ih hfirst (fun c hc => hal c (hperm.mem_iff.mp hc))
        (fun c hc => hne c (List.mem_cons_of_mem _ hc)) (hperm.nodup_iff.mpr hnodup)
      rw [List.reverse_cons, List.append_assoc]
      exact hrest

/-- Pushing writes the words at the new nodes only. -/
theorem pushNode_outside (hout : ∀ c ∈ others, b ∉ ByteRange.mk c 8) : (others.foldl pushNode (m, a)).1 b = m b := by
  induction others generalizing m a with
  | nil => rfl
  | cons c others ih =>
      refine (ih fun d hd => hout d (List.mem_cons_of_mem _ hd)).trans ?_
      exact store64_outside a (hout c List.mem_cons_self)

end Bytes
end Lib
