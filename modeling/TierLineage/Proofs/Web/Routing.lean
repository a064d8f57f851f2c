import TierLineage.Proofs.Naming
import TierLineage.Web.Site

/-!
# From requests to tasks

A path leads to the first route that its segments fit.  Some segments of a path are known, and of
others only what they are not; these clues are enough to tell that a route does not fit, so that the
routes in front of the one that is looked for can be excluded together.
-/

namespace TierLineage.Web

open TierLineage.Text

namespace Route

/-! ### Routes that fit -/

theorem arguments?_fixed (name : String) (parts : List Part) (segments : List (List Char)) :
    arguments? (.fixed name :: parts) (name.toList :: segments) = arguments? parts segments :=
  if_pos rfl

theorem arguments?_parameter {segment : List Char} (h : segment ≠ []) (parts : List Part)
    (segments : List (List Char)) : arguments? (.parameter :: parts) (segment :: segments) =
      (arguments? parts segments).map (segment :: ·) := by
  rw [arguments?, List.isEmpty_eq_false_iff.mpr h]
  rfl

/-! ### Routes that do not fit -/

/-- What is known of a segment: its text, or some texts that it is not, besides the empty one. -/
inductive Clue where
  | text (name : String)
  | otherThan (names : List String)

namespace Clue

/-- Whether a clue is true of a segment. -/
def Holds : Clue → List Char → Prop
  | text name, segment => segment = name.toList
  | otherThan names, segment => segment ≠ [] ∧ ∀ name ∈ names, segment ≠ name.toList

/-- Whether a clue tells that a segment does not fit a part of a route. -/
def excludes : Clue → Part → Bool
  | text name, .fixed n => name != n
  | otherThan names, .fixed n => names.contains n
  | text _, .parameter => false
  | otherThan _, .parameter => false

theorem ne_of_excludes {c : Clue} {segment : List Char} {n : String} (h : c.Holds segment)
    (hc : c.excludes (.fixed n) = true) : segment ≠ n.toList := by
  cases c with
  | text name =>
    rw [show segment = name.toList from h]
    exact fun heq => bne_iff_ne.mp hc (String.toList_inj.mp heq)
  | otherThan names => exact h.2 n (List.contains_iff_mem.mp hc)

end Clue

/-- Whether clues tell that segments do not fit the parts of a route. -/
def excluded : List Part → List Clue → Bool
  | [], [] => false
  | p :: parts, c :: clues => c.excludes p || excluded parts clues
  | _, _ => true

theorem arguments?_of_excluded {parts : List Part} {clues : List Clue}
    {segments : List (List Char)} (h : List.Forall₂ Clue.Holds clues segments)
    (hparts : excluded parts clues = true) : arguments? parts segments = none := by
  induction h generalizing parts with
  | nil =>
    cases parts with
    | nil => cases hparts
    | cons p parts => cases p <;> rfl
  | @cons c segment clues segments hc _ ih =>
    cases parts with
    | nil => rfl
    | cons p parts =>
      rw [excluded, Bool.or_eq_true] at hparts
      cases p with
      | fixed n =>
        rw [arguments?]
        split
        · next heq => exact ih (hparts.resolve_left fun he => Clue.ne_of_excludes hc he heq)
        · rfl
      | parameter =>
        have hrest : excluded parts clues = true := by
          refine hparts.resolve_left fun he => ?_
          cases c <;> cases he
        rw [arguments?, ih hrest]
        exact ite_self _

/-! ### Paths -/

/-- The first segments of the paths of the service are known. -/
theorem segments?_api (name : String) (h : '/' ∉ name.toList) (cs : List Char) :
    segments? ("/api/v1/".toList ++ (name.toList ++ '/' :: cs)) =
      some ("api".toList :: "v1".toList :: name.toList :: pieces '/' cs) := by
  have hapi := pieces_append (show '/' ∉ "api".toList by decide)
    ("v1/".toList ++ (name.toList ++ '/' :: cs))
  have hversion := pieces_append (show '/' ∉ "v1".toList by decide) (name.toList ++ '/' :: cs)
  have hname := pieces_append h cs
  exact congrArg some (hapi.trans (congrArg _ (hversion.trans (congrArg _ hname))))

/-- A path leads to a route that its segments fit, if clues exclude all routes in front of it. -/
theorem find?_eq {path : List Char} {segments arguments : List (List Char)} {clues : List Clue}
    {r : Route} {i : Nat} (hpath : segments? path = some segments)
    (hclues : List.Forall₂ Clue.Holds clues segments) (hr : all[i]? = some r)
    (hbefore : ∀ q ∈ all.take i, excluded q.parts clues = true)
    (harguments : arguments? r.parts segments = some arguments) :
    find? path = some (r, arguments) := by
  have hsplit : all = all.take i ++ r :: all.drop (i + 1) := by
    obtain ⟨hi, rfl⟩ := List.getElem?_eq_some_iff.mp hr
    rw [List.getElem_cons_drop, List.take_append_drop]
  have hnone : ((all.take i).findSome? fun q => (arguments? q.parts segments).map (q, ·)) = none :=
    List.findSome?_eq_none_iff.mpr fun q hq => by
      rw [arguments?_of_excluded hclues (hbefore q hq)]
      rfl
  rw [find?, hpath]
  change (all.findSome? fun q => (arguments? q.parts segments).map (q, ·)) = _
  rw [hsplit, List.findSome?_append, hnone, Option.none_or, List.findSome?_cons, harguments]
  rfl

end Route

/-! ### Requests -/

theorem parameters_singleton {segment : List Char} {text : String}
    (h : segmentText? segment = some text) : parameters [segment] = .ok [text] := by
  rw [parameters, List.mapM_cons, h]
  rfl

section Tasks

variable {r : Request} {route : Route} {segments : List (List Char)} {a : Action}
  {texts : List String} (hroute : Route.find? r.path = some (route, segments))
  (ha : route.action? r.method = some a) (htexts : parameters segments = .ok texts)

include hroute ha htexts

/-- The task of a request whose path leads to a route. -/
theorem Task.ofRequest_eq {t : Task} (ht : taskOf r a texts = .ok t) : Task.ofRequest r = t := by
  have hbind : parameters segments >>= taskOf r a = .ok t := by
    rw [htexts]
    exact ht
  rw [ofRequest, hroute]
  simp only [ha, hbind]

/-- The task of a request that cannot be read is to say so. -/
theorem Task.ofRequest_error {response : Response} (ht : taskOf r a texts = .error response) :
    Task.ofRequest r = .respond response := by
  have hbind : parameters segments >>= taskOf r a = .error response := by
    rw [htexts]
    exact ht
  rw [ofRequest, hroute]
  simp only [ha, hbind]

end Tasks

namespace Site

/-- Telling who may use a response changes neither its status nor its content. -/
theorem status_shared (s : Site) (r : Request) (response : Response) :
    (s.shared r response).status = response.status := by
  rw [shared]
  split <;> rfl

theorem body_shared (s : Site) (r : Request) (response : Response) :
    (s.shared r response).body = response.body := by
  rw [shared]
  split <;> rfl

/-- A request that asks for neither options nor a head is responded to by its task. -/
theorem respond_eq (s : Site) {r : Request} (hoptions : r.method ≠ .options)
    (hhead : r.method ≠ .head) : s.respond r =
      (s.shared r (perform s.world (Task.ofRequest r)).1,
        { s with world := (perform s.world (Task.ofRequest r)).2 }) := by
  rw [respond]
  split
  · next h => exact absurd h hoptions
  · simp only [hhead, if_false]

end Site

end TierLineage.Web
