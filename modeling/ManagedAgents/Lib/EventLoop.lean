import Mathlib.Data.List.Nodup
import Mathlib.Tactic.Lemma

/-!
An event loop: callbacks wait for their time and are run one after the other.

Of the callbacks whose time has come any may be the next, so what holds of every run holds of a loop
that keeps them in order. A handle names one callback for ever, and its number is not given again.
-/

namespace ManagedAgents.Lib

/-- A callback that waits. -/
structure Handle (κ : Type*) where
  id : ℕ
  due : ℕ
  callback : κ

structure EventLoop (κ : Type*) where
  now : ℕ
  next : ℕ
  handles : List (Handle κ)
  fresh : ∀ h ∈ handles, h.id < next
  nodup : (handles.map Handle.id).Nodup

namespace EventLoop

variable {κ : Type*} {l l' : EventLoop κ} {h h' : Handle κ} {delay id t : ℕ} {k : κ}

def new : EventLoop κ := ⟨0, 0, [], nofun, List.nodup_nil⟩

/-- The handle of the next callback. -/
def handle (l : EventLoop κ) (delay : ℕ) (k : κ) : Handle κ := ⟨l.next, l.now + delay, k⟩

lemma next_not_mem (l : EventLoop κ) : l.next ∉ l.handles.map Handle.id := by
  intro hmem
  obtain ⟨h, hh, hid⟩ := List.mem_map.mp hmem
  have hlt := l.fresh h hh
  omega

def callLater (l : EventLoop κ) (delay : ℕ) (k : κ) : EventLoop κ where
  now := l.now
  next := l.next + 1
  handles := l.handle delay k :: l.handles
  fresh h hh := by
    rcases List.mem_cons.mp hh with rfl | hh
    · exact Nat.lt_succ_self _
    · exact Nat.lt_succ_of_lt (l.fresh h hh)
  nodup := List.nodup_cons.mpr ⟨l.next_not_mem, l.nodup⟩

def callSoon (l : EventLoop κ) (k : κ) : EventLoop κ := l.callLater 0 k

def cancel (l : EventLoop κ) (id : ℕ) : EventLoop κ where
  now := l.now
  next := l.next
  handles := l.handles.filter (·.id ≠ id)
  fresh h hh := l.fresh h (List.mem_of_mem_filter hh)
  nodup := l.nodup.sublist (List.filter_sublist.map Handle.id)

/-- The callback with this number is run: its time has come. -/
def take (l : EventLoop κ) (id : ℕ) : Option (κ × EventLoop κ) :=
  (l.handles.find? fun h => h.id = id ∧ h.due ≤ l.now).map fun h => (h.callback, l.cancel h.id)

def advance (l : EventLoop κ) (t : ℕ) : EventLoop κ := { l with now := l.now + t }

/-! ### What waits -/

@[simp] lemma new_handles : (new : EventLoop κ).handles = [] := rfl

@[simp] lemma callLater_now : (l.callLater delay k).now = l.now := rfl

@[simp] lemma callSoon_now : (l.callSoon k).now = l.now := rfl

@[simp] lemma cancel_now : (l.cancel id).now = l.now := rfl

@[simp] lemma advance_handles : (l.advance t).handles = l.handles := rfl

@[simp] lemma mem_callLater :
    h ∈ (l.callLater delay k).handles ↔ h = l.handle delay k ∨ h ∈ l.handles :=
  List.mem_cons

@[simp] lemma mem_callSoon :
    h ∈ (l.callSoon k).handles ↔ h = l.handle 0 k ∨ h ∈ l.handles :=
  List.mem_cons

@[simp] lemma mem_cancel : h ∈ (l.cancel id).handles ↔ h ∈ l.handles ∧ h.id ≠ id := by
  simp [cancel]

@[simp] lemma handle_callback : (l.handle delay k).callback = k := rfl

@[simp] lemma handle_due : (l.handle delay k).due = l.now + delay := rfl

/-- One number, one handle. -/
lemma eq_of_id (hh : h ∈ l.handles) (hh' : h' ∈ l.handles) (hid : h.id = h'.id) : h = h' :=
  List.inj_on_of_nodup_map l.nodup hh hh' hid

lemma cancel_cancel : (l.cancel id).cancel id = l.cancel id := by
  simp [cancel]

/-- Of the callbacks with a property there are fewer once one of them is gone. -/
lemma countP_cancel {p : Handle κ → Bool} (hh : h ∈ l.handles) (hp : p h = true) :
    (l.cancel h.id).handles.countP p < l.handles.countP p := by
  have hlt : ((l.handles.filter p).filter (·.id ≠ h.id)).length < (l.handles.filter p).length :=
    List.length_filter_lt_length_iff_exists.mpr
      ⟨h, List.mem_filter.mpr ⟨hh, hp⟩, by simp⟩
  rw [List.countP_eq_length_filter, List.countP_eq_length_filter]
  simpa only [cancel, List.filter_filter, Bool.and_comm] using hlt

lemma countP_cancel_le {p : Handle κ → Bool} :
    (l.cancel id).handles.countP p ≤ l.handles.countP p :=
  List.Sublist.countP_le List.filter_sublist

/-- What is run had waited, and waits no more; the rest is left as it was. -/
lemma take_spec (htake : l.take id = some (k, l')) :
    ∃ h ∈ l.handles, h.callback = k ∧ h.due ≤ l.now ∧ l' = l.cancel h.id := by
  obtain ⟨h, hfind, heq⟩ := Option.map_eq_some_iff.mp htake
  cases heq
  have hdue := List.find?_some hfind
  simp only [decide_eq_true_eq] at hdue
  exact ⟨h, List.mem_of_find?_eq_some hfind, rfl, hdue.2, rfl⟩

end EventLoop

end ManagedAgents.Lib
