import Spdy.Proofs.Turn

/-!
# Runs whose encoder changes

An encoder may have a state of its own, and may give out at times. So whenever something happens to a session its encoder
may be another one, as long as it is one of those that may be.

* `Course ok start past m` : a run with an encoder at each moment that is `ok`;
* `Course.since`, `Course.of_append`, `Course.split` : what happens since some moment, and a run up to some moment;
* `Run.course`, `Course.extend` : runs with one encoder, and a course that goes on with one;
* `placed_of_course` : where frames are handed over.
-/

namespace Spdy

/-- The run of a machine whose encoder may be another one at each moment. -/
inductive Course (ok : Encoder → Prop) (start : Machine) : List Moment → Machine → Prop
  | start : Course ok start [] start
  | next {past : List Moment} {m m' : Machine} {e : Event} {enc : Encoder} (course : Course ok start past m)
      (may : ok enc) (h : m.next? enc e = some m') : Course ok start (past ++ [⟨m, e, m'⟩]) m'

section Course

variable {ok : Encoder → Prop} {enc : Encoder} {start m last : Machine} {past pre post more : List Moment} {mo : Moment}

/-- What happens since some moment: an induction over the rest of a course. -/
theorem Course.since {P : List Moment → Machine → Prop} (course : Course ok start (pre ++ mo :: post) m)
    (base : ∀ {enc : Encoder}, ok enc → Course ok start pre mo.before →
      mo.before.next? enc mo.event = some mo.after → P [] mo.after)
    (step : ∀ {post : List Moment} {m m' : Machine} {e : Event} {enc : Encoder}, ok enc →
      Course ok start (pre ++ mo :: post) m → m.next? enc e = some m' → P post m → P (post ++ [⟨m, e, m'⟩]) m') :
    P post m := by
  generalize hpast : pre ++ mo :: post = past at course
  induction course generalizing post with
  | start => simp at hpast
  | next course may h ih =>
    rcases split_of_concat hpast with ⟨rfl, rfl, rfl⟩ | ⟨rest, rfl, rfl⟩
    · exact base may course h
    · exact step may course h (ih rfl)

theorem Course.after (course : Course ok start (pre ++ mo :: post) m) : Course ok mo.after post m :=
  course.since (P := fun post m => Course ok mo.after post m) (fun _ _ _ => .start) fun may _ h ih => ih.next may h

theorem Course.of_append (course : Course ok start (pre ++ mo :: post) m) :
    Course ok start pre mo.before ∧ ∃ enc, ok enc ∧ mo.before.next? enc mo.event = some mo.after :=
  course.since (P := fun _ _ => Course ok start pre mo.before ∧ ∃ enc, ok enc ∧
    mo.before.next? enc mo.event = some mo.after) (fun may hpre h => ⟨hpre, _, may, h⟩) fun _ _ _ ih => ih

/-- A course comes to some machine on its way, and goes on from there. -/
theorem Course.split (course : Course ok start (past ++ more) m) : ∃ n, Course ok start past n ∧ Course ok n more m := by
  generalize hall : past ++ more = all at course
  induction course generalizing more with
  | start =>
    obtain ⟨rfl, rfl⟩ := List.append_eq_nil_iff.1 hall
    exact ⟨_, .start, .start⟩
  | next course may h ih =>
    rcases List.eq_nil_or_concat more with rfl | ⟨rest, x, rfl⟩
    · rw [List.append_nil] at hall
      subst hall
      exact ⟨_, course.next may h, .start⟩
    · rw [List.concat_eq_append, ← List.append_assoc] at hall
      obtain ⟨hpast, hlast⟩ := List.append_inj' hall rfl
      obtain rfl := List.singleton_inj.1 hlast
      obtain ⟨n, hn, hrest⟩ := ih hpast
      exact ⟨n, hn, by rw [List.concat_eq_append]; exact hrest.next may h⟩

theorem Course.eq_after (course : Course ok start (past ++ [mo]) m) : m = mo.after := by
  have h : ([] : List Moment) = [] → m = mo.after :=
    course.since (P := fun post m => post = [] → m = mo.after) (fun _ _ _ _ => rfl) fun _ _ _ _ hpost => by
      simp at hpost
  exact h rfl

theorem Run.course (run : Run enc start past m) (may : ok enc) : Course ok start past m := by
  induction run with
  | start => exact .start
  | next _ h ih => exact ih.next may h

theorem Course.extend (course : Course ok start past m) (may : ok enc) (run : Run enc m more last) :
    Course ok start (past ++ more) last := by
  induction run with
  | start => rwa [List.append_nil]
  | next _ h ih =>
    rw [← List.append_assoc]
    exact ih.next may h

theorem placed_of_course {s : Session} (course : Course ok { session := s } past m) : m.Placed := by
  induction course with
  | start => simp [Machine.Placed]
  | next _ _ h ih => exact placed_of_happens (Machine.happens_of_next? h) ih

end Course

end Spdy
