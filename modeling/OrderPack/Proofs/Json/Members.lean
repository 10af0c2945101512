import OrderPack.Json.Basic

/-! The members of an object. They are put into the order of their keys one after another, so that
members that are in order already stay as they are, and each is found in the object unless a later
one takes its place. -/
namespace OrderPack.Json

/-- A member with the greatest key comes last. -/
theorem insertMember_last {key : String} {members : List (String × Json)}
    (greatest : ∀ member ∈ members, member.1 < key) (value : Json) :
    insertMember key value members = members ++ [(key, value)] := by
  induction members with
  | nil => rfl
  | cons member members ih =>
    obtain ⟨first, others⟩ := List.forall_mem_cons.mp greatest
    rw [insertMember, if_neg (String.lt_asymm first), if_neg (String.ne_of_lt first).symm,
      ih others]
    rfl

/-- Members that are in order stay as they are. -/
theorem ofMembers_of_ordered {members : List (String × Json)}
    (ordered : members.Pairwise (·.1 < ·.1)) : ofMembers members = .object members := by
  have fold : ∀ sorted : List (String × Json), (sorted ++ members).Pairwise (·.1 < ·.1) →
      members.foldl (fun sorted member => insertMember member.1 member.2 sorted) sorted =
        sorted ++ members := by
    clear ordered
    induction members with
    | nil => exact fun sorted _ => (List.append_nil sorted).symm
    | cons member members ih =>
      intro sorted ordered
      have last := insertMember_last (fun other found =>
        (List.pairwise_append.mp ordered).2.2 other found member (.head _)) member.2
      rw [List.append_cons] at ordered
      rw [List.foldl_cons, last, ih _ ordered, List.append_assoc]
      rfl
  rw [ofMembers, fold [] ordered]
  rfl

theorem mem_insertMember {key : String} {value : Json} {members : List (String × Json)}
    {member : String × Json} (found : member ∈ insertMember key value members) :
    member = (key, value) ∨ member ∈ members := by
  induction members with
  | nil => exact .inl (List.mem_singleton.mp found)
  | cons other members ih =>
    rw [insertMember] at found
    split at found
    · exact List.mem_cons.mp found
    · split at found
      · rcases List.mem_cons.mp found with same | later
        · exact .inl same
        · exact .inr (.tail _ later)
      · rcases List.mem_cons.mp found with rfl | later
        · exact .inr (.head _)
        · exact (ih later).imp_right (.tail _)

/-- A member is put where the order of the keys wants it. -/
theorem ordered_insertMember {members : List (String × Json)} (key : String) (value : Json)
    (ordered : members.Pairwise (·.1 < ·.1)) :
    (insertMember key value members).Pairwise (·.1 < ·.1) := by
  induction members with
  | nil => exact List.pairwise_singleton _ _
  | cons other members ih =>
    obtain ⟨first, others⟩ := List.pairwise_cons.mp ordered
    rw [insertMember]
    split
    · rename_i before
      refine List.pairwise_cons.mpr ⟨fun member found => ?_, ordered⟩
      rcases List.mem_cons.mp found with rfl | later
      · exact before
      · exact String.lt_trans before (first member later)
    · rename_i notBefore
      split
      · rename_i same
        subst same
        exact List.pairwise_cons.mpr ⟨first, others⟩
      · rename_i apart
        refine List.pairwise_cons.mpr ⟨fun member found => ?_, ih others⟩
        rcases mem_insertMember found with rfl | later
        · exact Std.lt_of_le_of_ne (String.not_lt.mp notBefore) (Ne.symm apart)
        · exact first member later

end OrderPack.Json
