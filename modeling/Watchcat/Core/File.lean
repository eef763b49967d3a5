import Mathlib.Algebra.Ring.Nat
import Mathlib.Data.List.DropRight
import Watchcat.Core.Sequential

/-!
# One file

The calls of a program on one file and what they make of its content. A write
takes a part of what it is handed, so a record is written in any number of parts
and may be left unfinished; replacing the file is atomic. A call that fails
leaves the content as it is.
-/

namespace Watchcat.Core

/-- A call on one file. -/
inductive FileCall
  /-- Create the directory of the file. -/
  | createParent
  /-- Whether the file is there. -/
  | isPresent
  /-- Open it for appending, creating it where it is missing. -/
  | openAppend
  /-- Open it for writing. -/
  | openExisting
  /-- The length of the open file. -/
  | length
  /-- Hand over bytes; the answer says how many were taken. -/
  | write (content : List UInt8)
  /-- Cut the open file off, or extend it with zeros. -/
  | setLen (n : Nat)
  | flush
  /-- Read the whole file; none where it is missing. -/
  | read
  /-- Replace the whole content at once. -/
  | replace (content : List UInt8)

/-- The answer of a call on the file, with errors in `ε`. -/
@[reducible] def FileReply (ε : Type) : FileCall → Type
  | .createParent => Except ε Unit
  | .isPresent => Bool
  | .openAppend => Except ε Unit
  | .openExisting => Except ε Unit
  | .length => Except ε Nat
  | .write _ => Except ε Nat
  | .setLen _ => Except ε Unit
  | .flush => Except ε Unit
  | .read => Except ε (Option (List UInt8))
  | .replace _ => Except ε Unit

/-- The content of a file, none where it is missing. -/
abbrev FileContent : Type := Option (List UInt8)

/-- What a call makes of the content, by its answer. -/
def FileCall.act {ε : Type} (w : FileContent) :
    (op : FileCall) → FileReply ε op → FileContent → Prop
  | .createParent, _, w' => w' = w
  | .isPresent, r, w' => w' = w ∧ r = w.isSome
  | .openAppend, .ok _, w' => w' = some (w.getD [])
  | .openAppend, .error _, w' => w' = w
  | .openExisting, r, w' => w' = w ∧ (r.isOk = true → w.isSome = true)
  | .length, r, w' => w' = w ∧ ∀ n, r = .ok n → ∃ b, w = some b ∧ n = b.length
  | .write content, .ok n, w' => n ≤ content.length ∧ w' = w.map (· ++ content.take n)
  | .write _, .error _, w' => w' = w
  | .setLen n, .ok _, w' => w' = w.map fun b => b.take n ++ List.replicate (n - b.length) 0
  | .setLen _, .error _, w' => w' = w
  | .flush, _, w' => w' = w
  | .read, r, w' => w' = w ∧ ∀ content, r = .ok content → content = w
  | .replace content, .ok _, w' => w' = some content
  | .replace _, .error _, w' => w' = w

/-- The system of one file that one program uses. -/
def fileSystem (ε : Type) : System (FileReply ε) Unit FileContent where
  act _ := FileCall.act
  begins _ _ _ _ := False
  drops _ _ _ := False
  changes _ _ := False
  restarts _ _ := False

/-- A method on the file. -/
abbrev FileAct (σ ε α : Type) : Type := Act (FileReply ε) σ ε α

/-- A trace of calls on the file. -/
abbrev FileTrace (ε : Type) : Type := List (Prog.Event (FileReply ε))

/-- The content passes through the answered calls of a trace. -/
abbrev FilePath {ε : Type} (w : FileContent) (tr : FileTrace ε) (w' : FileContent) : Prop :=
  (fileSystem ε).Path () w tr w'

variable {σ ε α : Type}

/-- Hand over all bytes, part by part; a part that is not taken at all is an error. The first
argument bounds the parts, of which there are no more than bytes. -/
def writeAll (writeZero : ε) : Nat → List UInt8 → FileAct σ ε Unit
  | 0, _ => Act.ret ()
  | parts + 1, content =>
    if content = [] then Act.ret ()
    else do
      let n ← Act.ofExcept (← Act.perform (.write content))
      if n = 0 then Act.fail writeZero
      else writeAll writeZero parts (content.drop n)

/-! ## What a trace wrote -/

/-- How many bytes a call took. -/
def bytesTaken : Prog.Event (FileReply ε) → Nat
  | ⟨.write _, .ok n⟩ => n
  | _ => 0

/-- How many bytes the writes of a trace took. -/
def written (tr : FileTrace ε) : Nat := (tr.map bytesTaken).sum

/-- A call that replaced the content. -/
def isReplacement : Prog.Event (FileReply ε) → Bool
  | ⟨.replace _, .ok _⟩ => true
  | _ => false

/-- Whether a trace replaced the content. -/
def replaced (tr : FileTrace ε) : Bool := tr.any isReplacement

@[simp] theorem written_nil : written ([] : FileTrace ε) = 0 := rfl

@[simp] theorem written_cons (e : Prog.Event (FileReply ε)) (tr : FileTrace ε) :
    written (e :: tr) = bytesTaken e + written tr := rfl

@[simp] theorem written_append (tr tr' : FileTrace ε) :
    written (tr ++ tr') = written tr + written tr' := by
  simp [written]

@[simp] theorem replaced_nil : replaced ([] : FileTrace ε) = false := rfl

@[simp] theorem replaced_cons (e : Prog.Event (FileReply ε)) (tr : FileTrace ε) :
    replaced (e :: tr) = (isReplacement e || replaced tr) := rfl

@[simp] theorem replaced_append (tr tr' : FileTrace ε) :
    replaced (tr ++ tr') = (replaced tr || replaced tr') := List.any_append

@[simp] theorem filePath_nil {w w' : FileContent} :
    FilePath w ([] : FileTrace ε) w' ↔ w' = w := by
  constructor
  · intro h
    cases h
    rfl
  · rintro rfl
    exact .nil w'

theorem filePath_cons {w w' : FileContent} {e : Prog.Event (FileReply ε)} {tr : FileTrace ε} :
    FilePath w (e :: tr) w' ↔ ∃ mid, FileCall.act w e.1 e.2 mid ∧ FilePath mid tr w' :=
  System.path_cons

theorem filePath_append {w w' : FileContent} {tr tr' : FileTrace ε} :
    FilePath w (tr ++ tr') w' ↔ ∃ mid, FilePath w tr mid ∧ FilePath mid tr' w' :=
  System.path_append

/-- The calls that leave the content as it is, whatever they answer. -/
def FileCall.Inspects : FileCall → Prop
  | .openAppend => False
  | .write _ => False
  | .setLen _ => False
  | .replace _ => False
  | _ => True

/-- Inspecting the file writes nothing and leaves the content. -/
theorem inspects_path {w w' : FileContent} {tr : FileTrace ε} (h : ∀ e ∈ tr, e.1.Inspects)
    (hp : FilePath w tr w') : w' = w ∧ written tr = 0 ∧ replaced tr = false := by
  induction tr generalizing w with
  | nil => exact ⟨filePath_nil.mp hp, rfl, rfl⟩
  | cons e tr ih =>
    obtain ⟨mid, hact, hrest⟩ := filePath_cons.mp hp
    obtain ⟨op, r⟩ := e
    have hop : op.Inspects := h _ List.mem_cons_self
    have hone : mid = w ∧ bytesTaken ⟨op, r⟩ = 0 ∧ isReplacement ⟨op, r⟩ = false := by
      cases op with
      | openAppend => exact hop.elim
      | write _ => exact hop.elim
      | setLen _ => exact hop.elim
      | replace _ => exact hop.elim
      | createParent => exact ⟨hact, rfl, rfl⟩
      | flush => exact ⟨hact, rfl, rfl⟩
      | isPresent => exact ⟨hact.1, rfl, rfl⟩
      | openExisting => exact ⟨hact.1, rfl, rfl⟩
      | length => exact ⟨hact.1, rfl, rfl⟩
      | read => exact ⟨hact.1, rfl, rfl⟩
    obtain ⟨rfl, htaken, hrep⟩ := hone
    obtain ⟨rfl, hwritten, hreplaced⟩ := ih (fun e he => h e (List.mem_cons_of_mem _ he)) hrest
    exact ⟨rfl, by rw [written_cons, htaken, hwritten], by rw [replaced_cons, hrep, hreplaced]; rfl⟩

/-! ## Writing everything -/

section WriteAll

variable {writeZero : ε} {s s' : σ} {b : List UInt8} {w' : FileContent}

/-- Whatever a write leaves, the content has grown by the part of the bytes that was taken. -/
theorem writeAll_performs {parts : Nat} {content : List UInt8} {tr : FileTrace ε}
    (h : (writeAll writeZero parts content : FileAct σ ε Unit).Performs s tr)
    (hp : FilePath (some b) tr w') :
    w' = some (b ++ content.take (written tr)) ∧ written tr ≤ content.length ∧
      replaced tr = false := by
  have hnil : ∀ {tr : FileTrace ε} {b : List UInt8} {content : List UInt8}, tr = [] →
      FilePath (some b) tr w' → w' = some (b ++ content.take (written tr)) ∧
        written tr ≤ content.length ∧ replaced tr = false := by
    rintro _ b content rfl hp
    simpa using filePath_nil.mp hp
  induction parts generalizing content tr b with
  | zero => exact hnil h hp
  | succ parts ih =>
    rw [writeAll] at h
    split at h
    · exact hnil h hp
    · rw [Act.bind_eq, Act.performs_perform_andThen] at h
      rcases h with htr | ⟨(e | n), rest, rfl, h⟩
      · exact hnil htr hp
      · rw [Act.bind_eq, Act.ofExcept_error_andThen] at h
        obtain rfl : rest = [] := h
        obtain ⟨mid, hact, hp⟩ := filePath_cons.mp hp
        obtain rfl : mid = some b := hact
        simpa [bytesTaken, isReplacement] using hp
      · obtain ⟨mid, ⟨hn, rfl⟩, hp⟩ := filePath_cons.mp hp
        rw [Act.bind_eq, Act.ofExcept_ok_andThen] at h
        split at h
        · obtain rfl : rest = [] := h
          subst n
          simpa [bytesTaken, isReplacement] using hp
        · obtain ⟨rfl, hle, hrep⟩ := ih h hp
          rw [List.length_drop] at hle
          refine ⟨?_, ?_, hrep⟩
          · rw [written_cons, bytesTaken, List.append_assoc, ← List.take_add]
          · rw [written_cons, bytesTaken]
            omega

/-- All bytes were taken where the write succeeds, and not all of them where it fails. -/
theorem writeAll_returns {parts : Nat} {content : List UInt8} {tr : FileTrace ε}
    {r : Except ε Unit} (hparts : content.length ≤ parts)
    (h : (writeAll writeZero parts content : FileAct σ ε Unit).Returns s tr r s')
    (hp : FilePath (some b) tr w') :
    s' = s ∧ (r = .ok () → written tr = content.length) ∧
      (∀ e, r = .error e → written tr < content.length) := by
  induction parts generalizing content tr b with
  | zero =>
    obtain ⟨rfl, rfl, rfl⟩ := Act.returns_ret.mp h
    exact ⟨rfl, fun _ => (Nat.le_zero.mp hparts).symm, nofun⟩
  | succ parts ih =>
    rw [writeAll] at h
    split at h
    · obtain ⟨rfl, rfl, rfl⟩ := Act.returns_ret.mp h
      subst content
      exact ⟨rfl, fun _ => rfl, nofun⟩
    · rename_i hne
      have hpos : 0 < content.length := List.length_pos_iff.mpr hne
      rw [Act.bind_eq, Act.returns_perform_andThen] at h
      obtain ⟨(e | n), rest, rfl, h⟩ := h
      · rw [Act.bind_eq, Act.ofExcept_error_andThen] at h
        obtain ⟨rfl, rfl, rfl⟩ := Act.returns_fail.mp h
        exact ⟨rfl, nofun, fun _ _ => hpos⟩
      · obtain ⟨mid, ⟨hn, rfl⟩, hp⟩ := filePath_cons.mp hp
        rw [Act.bind_eq, Act.ofExcept_ok_andThen] at h
        split at h
        · obtain ⟨rfl, rfl, rfl⟩ := Act.returns_fail.mp h
          subst n
          exact ⟨rfl, nofun, fun _ _ => hpos⟩
        · rename_i hn0
          have hdrop : (content.drop n).length ≤ parts := by
            rw [List.length_drop]
            omega
          obtain ⟨hs, hok, herr⟩ := ih hdrop h hp
          rw [List.length_drop] at hok herr
          refine ⟨hs, fun hr => ?_, fun e hr => ?_⟩
          · rw [written_cons, bytesTaken, hok hr]
            omega
          · have := herr e hr
            rw [written_cons, bytesTaken]
            omega

end WriteAll

/-- Writing everything makes no other call. -/
theorem uses_writeAll (writeZero : ε) (parts : Nat) (content : List UInt8) :
    (writeAll writeZero parts content : FileAct σ ε Unit).Uses fun op => ∃ b, op = .write b := by
  induction parts generalizing content with
  | zero => exact Act.uses_ret ()
  | succ parts ih =>
    refine Act.uses_ite (Act.uses_ret ()) ?_
    refine (Act.uses_perform ⟨content, rfl⟩).andThen fun r => (Act.uses_ofExcept r).andThen ?_
    exact fun n => Act.uses_ite (Act.uses_fail writeZero) (ih _)

/-! ## Methods that only append -/

/-- The method appends the bytes: a part of them where it is cut off or fails, all of them
where it succeeds. -/
structure Appends (m : FileAct σ ε Unit) (content : List UInt8) : Prop where
  performs : ∀ {s : σ} {b : List UInt8} {tr : FileTrace ε} {w' : FileContent},
    m.Performs s tr → FilePath (some b) tr w' →
      w' = some (b ++ content.take (written tr)) ∧ written tr ≤ content.length ∧
        replaced tr = false
  returns : ∀ {s s' : σ} {b : List UInt8} {tr : FileTrace ε} {w' : FileContent},
    m.Returns s tr (.ok ()) s' → FilePath (some b) tr w' → written tr = content.length

theorem appends_ret : Appends (Act.ret () : FileAct σ ε Unit) [] where
  performs h hp := by
    obtain rfl := Act.performs_ret.mp h
    simpa using filePath_nil.mp hp
  returns h _ := by
    obtain ⟨rfl, _, _⟩ := Act.returns_ret.mp h
    rfl

theorem appends_writeAll {writeZero : ε} {parts : Nat} {content : List UInt8}
    (hparts : content.length ≤ parts) :
    Appends (writeAll writeZero parts content : FileAct σ ε Unit) content where
  performs := writeAll_performs
  returns h hp := (writeAll_returns hparts h hp).2.1 rfl

/-- What two methods append one after the other. -/
theorem Appends.andThen {m m' : FileAct σ ε Unit} {content content' : List UInt8}
    (hm : Appends m content) (hm' : Appends m' content') :
    Appends (Act.andThen m fun _ => m') (content ++ content') where
  performs := by
    intro s b tr w' h hp
    rcases Act.performs_andThen.mp h with h | ⟨first, second, _, mid, rfl, h, h'⟩
    · obtain ⟨rfl, hle, hrep⟩ := hm.performs h hp
      refine ⟨by rw [List.take_append_of_le_length hle], ?_, hrep⟩
      rw [List.length_append]
      exact hle.trans (Nat.le_add_right _ _)
    · obtain ⟨w, hp, hp'⟩ := filePath_append.mp hp
      obtain ⟨rfl, hle, hrep⟩ := hm.performs h.performs hp
      have hall := hm.returns h hp
      obtain ⟨rfl, hle', hrep'⟩ := hm'.performs h' hp'
      refine ⟨?_, ?_, ?_⟩
      · rw [written_append, hall, List.take_length, List.take_length_add_append,
          List.append_assoc]
      · rw [written_append, List.length_append]
        exact Nat.add_le_add hle hle'
      · rw [replaced_append, hrep, hrep']
        rfl
  returns := by
    intro s s' b tr w' h hp
    obtain ⟨first, second, _, mid, rfl, h, h'⟩ := Act.returns_andThen_ok.mp h
    obtain ⟨w, hp, hp'⟩ := filePath_append.mp hp
    obtain ⟨rfl, _, _⟩ := hm.performs h.performs hp
    rw [written_append, hm.returns h hp, hm'.returns h' hp', List.length_append]

/-- A loop appends what its rounds append. -/
theorem appends_forEach {ι : Type} {body : ι → FileAct σ ε Unit} {content : ι → List UInt8}
    (hbody : ∀ x, Appends (body x) (content x)) (xs : List ι) :
    Appends (Act.forEach body xs) (xs.flatMap content) := by
  induction xs with
  | nil => exact appends_ret
  | cons x xs ih =>
    rw [List.flatMap_cons]
    exact (hbody x).andThen ih

/-! ## Reading -/

/-- No reading of the file fails. -/
def ReadsSucceed (tr : FileTrace ε) : Prop := ∀ e : ε, ⟨.read, .error e⟩ ∉ tr

/-! ## Playing a program on a file -/

/-- How one call goes. -/
inductive FileTurn (ε : Type)
  | succeeds
  | fails (e : ε)
  /-- A write takes at most so many bytes. -/
  | takes (n : Nat)

namespace FileTurn

/-- The result of a call that may fail. -/
def result (r : α) : FileTurn ε → Except ε α
  | fails e => .error e
  | _ => .ok r

/-- The bytes a write takes. -/
def taken (content : List UInt8) : FileTurn ε → Except ε Nat
  | succeeds => .ok content.length
  | fails e => .error e
  | takes n => .ok (min n content.length)

/-- The content after a call that changes it where it succeeds. -/
def content (old new : FileContent) : FileTurn ε → FileContent
  | fails _ => old
  | _ => new

/-- The answer of a call and the content after it. -/
def answer (missing : ε) (turn : FileTurn ε) (w : FileContent) :
    (op : FileCall) → FileReply ε op × FileContent
  | .createParent => (turn.result (), w)
  | .isPresent => (w.isSome, w)
  | .openAppend => (turn.result (), turn.content w (some (w.getD [])))
  | .openExisting => (if w.isSome then turn.result () else .error missing, w)
  | .length => (match w with | some b => turn.result b.length | none => .error missing, w)
  | .write bytes => (turn.taken bytes, match turn.taken bytes with
    | .ok n => w.map (· ++ bytes.take n)
    | .error _ => w)
  | .setLen n => (turn.result (),
      turn.content w (w.map fun b => b.take n ++ List.replicate (n - b.length) 0))
  | .flush => (turn.result (), w)
  | .read => (turn.result w, w)
  | .replace bytes => (turn.result (), turn.content w (some bytes))

theorem answer_act (missing : ε) (turn : FileTurn ε) (w : FileContent) (op : FileCall) :
    FileCall.act w op (answer missing turn w op).1 (answer missing turn w op).2 := by
  cases op with
  | createParent => exact rfl
  | flush => exact rfl
  | isPresent => exact ⟨rfl, rfl⟩
  | openAppend => cases turn <;> exact rfl
  | setLen n => cases turn <;> exact rfl
  | replace bytes => cases turn <;> exact rfl
  | openExisting => cases w <;> exact ⟨rfl, by simp [answer, Except.isOk, Except.toBool]⟩
  | length =>
    cases w with
    | none => exact ⟨rfl, nofun⟩
    | some b => exact ⟨rfl, fun n hn => ⟨b, rfl, by cases turn <;> simp_all [answer, result]⟩⟩
  | read => exact ⟨rfl, fun content hread => by cases turn <;> simp_all [answer, result]⟩
  | write bytes =>
    cases turn with
    | succeeds => exact ⟨le_rfl, rfl⟩
    | fails e => exact rfl
    | takes n => exact ⟨Nat.min_le_right _ _, rfl⟩

end FileTurn

/-- The calls of a program on a file, each going as a list says and then well. -/
def filePlayer (missing : ε) : (fileSystem ε).Player () (List (FileTurn ε)) where
  answer script w op := (script.head?.getD .succeeds).answer missing w op
  rest := List.tail
  enabled _ := true
  sound _ w op _ := FileTurn.answer_act missing _ w op

/-- What is played is a run on the file. -/
theorem filePlayer_runs (missing : ε) (script : List (FileTurn ε)) (w : FileContent)
    (p : Prog (FileReply ε) α) :
    p.Returns ((filePlayer missing).play script w p).1 ((filePlayer missing).play script w p).2.1 ∧
      FilePath w ((filePlayer missing).play script w p).1
        ((filePlayer missing).play script w p).2.2 := by
  have hplays : (filePlayer missing).Plays script w p := by
    induction p generalizing script w with
    | pure a => trivial
    | call op next ih => exact ⟨rfl, ih _ _ _⟩
  exact ⟨((filePlayer missing).alone hplays).returns, ((filePlayer missing).alone hplays).path⟩

end Watchcat.Core
