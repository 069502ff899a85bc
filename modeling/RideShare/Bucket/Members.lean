import RideShare.Bucket
import RideShare.Chain.Members

/-!
# The members of a bucket

A bucket has certain members in a certain order if its chain has and if its count is their number.
Everything that can be asked of a bucket is then a question about the list of its members, and
every operation is one on that list.

Emptying a bucket is the one operation that leaves links behind which nothing leads to. That they do
no harm is what `Bucket.hasMembers_clear` says: the empty bucket has no members over any table of
links, whatever it holds.
-/

namespace RideShare.Bucket

/-- The bucket has exactly the members listed, in the order in which they entered. -/
structure HasMembers (bucket : Bucket) (links : LinkTable) (cells : List Nat) : Prop where
  /-- They are the members of the chain. -/
  chain : bucket.chain.HasMembers links cells
  /-- They are counted. -/
  count_eq : bucket.count = cells.length

@[simp] theorem hasMembers_nil (links : LinkTable) : HasMembers {} links [] where
  chain := Chain.hasMembers_nil links
  count_eq := rfl

@[simp] theorem hasMembers_clear (bucket : Bucket) (links : LinkTable) :
    bucket.clear.HasMembers links [] :=
  hasMembers_nil links

@[simp] theorem size_push (bucket : Bucket) (links : LinkTable) (i : Nat) :
    (bucket.push links i).2.size = links.size :=
  bucket.chain.size_push links i

@[simp] theorem size_remove (bucket : Bucket) (links : LinkTable) (i : Nat) :
    (bucket.remove links i).2.size = links.size :=
  bucket.chain.size_unlink links i

namespace HasMembers

variable {bucket : Bucket} {links : LinkTable} {cells : List Nat}

theorem toList_eq (h : bucket.HasMembers links cells) : bucket.toList links = cells :=
  h.chain.toList_eq

theorem toListRev_eq (h : bucket.HasMembers links cells) :
    bucket.toListRev links = cells.reverse :=
  h.chain.toListRev_eq

theorem front?_eq (h : bucket.HasMembers links cells) : bucket.front? = cells.head? :=
  h.chain.first_eq

theorem isEmpty_iff (h : bucket.HasMembers links cells) : bucket.isEmpty = true ↔ cells = [] := by
  rw [isEmpty, h.chain.first_eq]
  cases cells <;> simp

theorem push (h : bucket.HasMembers links cells) {i : Nat} (hi : i ∉ cells)
    (hlt : i < links.size) :
    (bucket.push links i).1.HasMembers (bucket.push links i).2 (cells ++ [i]) where
  chain := h.chain.push hi hlt
  count_eq := by simp [Bucket.push, h.count_eq]

theorem remove (h : bucket.HasMembers links cells) {i : Nat} (hi : i ∈ cells) :
    (bucket.remove links i).1.HasMembers (bucket.remove links i).2 (cells.erase i) where
  chain := h.chain.unlink hi
  count_eq := by simp [Bucket.remove, h.count_eq, List.length_erase_of_mem hi]

/-- A bucket has its members as long as they have their links. -/
theorem congr (h : bucket.HasMembers links cells) {links' : LinkTable}
    (same : ∀ i ∈ cells, links'[i]? = links[i]?) : bucket.HasMembers links' cells where
  chain := h.chain.congr same
  count_eq := h.count_eq

end HasMembers

end RideShare.Bucket
