import Reckoner.Proofs.Block.Normal
import Reckoner.Proofs.Compiler.Listing

/-!
# A parameter named like a temporary

Where a parameter has the name that a temporary is written with, listings are not faithful
(`not_listsFaithfully_of_isTempName`).  Powers of the parameter are computed one after another until
the temporary of that name holds one.  The difference of that power and the parameter, and the
difference of the parameter and that power, then have the same listing.
-/

namespace Reckoner

namespace Expr

variable {p : Program} {scope : Scope} {x : String} {i : Nat}

/-- A power of a variable, with `n + 1` multiplications. -/
def power (x : String) : Nat → Expr
  | 0 => .binary '*' (.var x) (.var x)
  | n + 1 => .binary '*' (power x n) (.var x)

def powerInsts (i : Nat) : Nat → Block
  | 0 => [.arith .mul (.param i) (.param i)]
  | n + 1 => powerInsts i n ++ [.arith .mul (.temp n) (.param i)]

theorem length_powerInsts (i n : Nat) : (powerInsts i n).length = n + 1 := by
  induction n with
  | zero => rfl
  | succ n ih => rw [powerInsts, List.length_append, ih]; rfl

theorem lower_var (hx : scope.lookup x = some (.param i)) (start : Nat) :
    (Expr.var x).lower p scope start = .ok ⟨[], .param i⟩ := by
  rw [lower, hx]

theorem lower_power (hx : scope.lookup x = some (.param i)) (n : Nat) :
    (power x n).lower p scope 0 = .ok ⟨powerInsts i n, .temp n⟩ := by
  induction n with
  | zero =>
    rw [power, lower, lower_var hx]
    simp only [lower_var hx, bind, Except.bind]
    rfl
  | succ n ih =>
    rw [power, lower, ih]
    simp only [lower_var hx, bind, Except.bind]
    rw [lowerBinary, if_neg (by decide)]
    simp [ArithOp.ofChar?, Code.ending, length_powerInsts, powerInsts]

def difference (i n : Nat) (l r : Operand) : Code :=
  ⟨powerInsts i n ++ [.arith .sub l r], .temp (n + 1)⟩

theorem lower_power_sub (hx : scope.lookup x = some (.param i)) (n : Nat) :
    (Expr.binary '-' (power x n) (.var x)).lower p scope 0 =
      .ok (difference i n (.temp n) (.param i)) := by
  rw [lower, lower_power hx]
  simp only [lower_var hx, bind, Except.bind]
  rw [lowerBinary, if_neg (by decide)]
  simp [ArithOp.ofChar?, Code.ending, length_powerInsts, difference]

theorem lower_sub_power (hx : scope.lookup x = some (.param i)) (n : Nat) :
    (Expr.binary '-' (.var x) (power x n)).lower p scope 0 =
      .ok (difference i n (.param i) (.temp n)) := by
  rw [lower, lower_var hx]
  simp only [bind, Except.bind, List.length_nil, Nat.add_zero, lower_power hx]
  rw [lowerBinary, if_neg (by decide)]
  simp [ArithOp.ofChar?, Code.ending, length_powerInsts, difference]

end Expr

namespace Block

theorem normalFrom_power (i n : Nat) {rest : Block} (hr : rest.any (·.reads n) = true)
    (h : NormalFrom (n + 1) rest) : NormalFrom 0 (Expr.powerInsts i n ++ rest) := by
  induction n generalizing rest with
  | zero => exact .cons rfl (fun _ => hr) h
  | succ n ih =>
    rw [Expr.powerInsts, List.append_assoc]
    exact ih (by simp [Inst.reads, Inst.operands]) (.cons rfl (fun _ => hr) h)

end Block

namespace Program

variable {p q : Program} {f : Func}

theorem bodyLines_append (i : Nat) (a b : Block) :
    p.bodyLines f i (a ++ b) = p.bodyLines f i a ++ p.bodyLines f (i + a.length) b := by
  induction a generalizing i with
  | nil => rfl
  | cons inst a ih =>
    have hn : i + 1 + a.length = i + (inst :: a).length := by
      rw [List.length_cons]
      omega
    rw [List.cons_append, bodyLines, bodyLines, ih, hn]
    cases p.instText? f i inst <;> rfl

end Program

namespace Compiler

open Program

variable {c : Compiler} {id : FuncId} {params : List String} {p : Program}

def differenceBody (i n : Nat) (l r : Operand) : Block :=
  Expr.powerInsts i n ++ [.arith .sub l r, .ret (.temp (n + 1))]

theorem tidied_difference (i n : Nat) {l r : Operand} (h : l = .temp n ∨ r = .temp n) :
    c.tidied ((Expr.difference i n l r).insts ++ [.ret (Expr.difference i n l r).value]) =
      differenceBody i n l r := by
  have hb : (Expr.difference i n l r).insts ++ [.ret (Expr.difference i n l r).value] =
      differenceBody i n l r := by
    simp [Expr.difference, differenceBody]
  have hn : Block.NormalFrom 0 (differenceBody i n l r) := by
    refine Block.normalFrom_power i n ?_ (.cons ?_ ?_ (.cons rfl nofun .nil))
    · rcases h with rfl | rfl <;> simp [Inst.reads, Inst.operands]
    · rcases h with rfl | rfl
      · rfl
      · cases l <;> rfl
    · simp [Inst.reads, Inst.operands]
  rw [hb]
  unfold tidied
  split
  · exact Block.clean_eq_self hn
  · rfl

theorem define_difference (h : c.program.Consistent) {d : Definition}
    (ht : c.program.Target d.proto id params p) {i n : Nat} {l r : Operand}
    (hlr : l = .temp n ∨ r = .temp n)
    (hc : d.body.lower p (Scope.ofParams params) 0 = .ok (Expr.difference i n l r)) :
    (c.define d).outcome = .ok id ∧ c.program.Sets id
      ⟨d.proto.name, params, some (differenceBody i n l r)⟩ (c.define d).compiler.program := by
  obtain ⟨ho, hs, -⟩ := (define_defined h d).1.of_code ht hc
  rw [tidied_difference i n hlr] at hs
  exact ⟨ho, hs⟩

/-- Where a parameter is written like the temporary `n`, it does not show in the listing of a
difference which of its operands is which. -/
theorem funcListing_difference {q q' : Program} {name : String} {i n : Nat}
    (hi : params[i]? = some ("t" ++ toString n))
    (hs : p.Sets id ⟨name, params, some (differenceBody i n (.temp n) (.param i))⟩ q)
    (hs' : p.Sets id ⟨name, params, some (differenceBody i n (.param i) (.temp n))⟩ q') :
    q.funcListing id = q'.funcListing id := by
  have hf := (hs.func? id).trans (if_pos rfl)
  have hf' := (hs'.func? id).trans (if_pos rfl)
  let f : Func := ⟨name, params, none⟩
  have ho : operandText f (.param i) = operandText f (.temp n) := by
    simp only [operandText, f, hi]
    rw [← String.append_assoc]
    rfl
  have htail (j : Nat) :
      q.bodyLines f j [.arith .sub (.temp n) (.param i), .ret (.temp (n + 1))] =
        q.bodyLines f j [.arith .sub (.param i) (.temp n), .ret (.temp (n + 1))] := by
    simp only [bodyLines, instText?, ho]
  have hlines := calc
    q.bodyLines ⟨name, params, some (differenceBody i n (.temp n) (.param i))⟩ 0
        (differenceBody i n (.temp n) (.param i))
      = q.bodyLines f 0 (differenceBody i n (.temp n) (.param i)) :=
        bodyLines_congr (fun _ => rfl) (by rfl) 0 _
    _ = q.bodyLines f 0 (differenceBody i n (.param i) (.temp n)) := by
        rw [differenceBody, differenceBody, bodyLines_append, bodyLines_append, htail]
    _ = q'.bodyLines ⟨name, params, some (differenceBody i n (.param i) (.temp n))⟩ 0
        (differenceBody i n (.param i) (.temp n)) :=
        (bodyLines_congr (calleeText_eq_of_sets hs hs') (by rfl) 0 _).symm
  unfold funcListing
  rw [hf, hf']
  simp only [Option.elim, funcText, hlines]
  rfl

/-- Where a parameter is named like a temporary, listings are not faithful. -/
theorem not_listsFaithfully_of_isTempName (h : c.program.Consistent) {proto : Prototype}
    (ht : c.program.Target proto id params p) {x : String} (hm : x ∈ params)
    (hx : IsTempName x) : ¬c.ListsFaithfully proto := by
  intro hfaithful
  obtain ⟨n, rfl⟩ := hx
  obtain ⟨o, ho⟩ : ∃ o, (Scope.ofParams params).lookup ("t" ++ toString n) = some o :=
    Option.ne_none_iff_exists'.1 fun hn => Scope.lookup_ofParams_eq_none_iff.1 hn hm
  obtain ⟨i, rfl, hi, -⟩ := Scope.last_of_lookup ho
  obtain ⟨hd, hs⟩ := define_difference (d := ⟨proto, _⟩) h ht (.inl rfl)
    (Expr.lower_power_sub ho n)
  obtain ⟨hd', hs'⟩ := define_difference (d := ⟨proto, _⟩) h ht (.inr rfl)
    (Expr.lower_sub_power ho n)
  obtain ⟨-, ⟨b, b', hb, hb', hbody⟩, -⟩ := hfaithful _ _ id id rfl rfl hd hd'
    (funcListing_difference hi hs hs')
  rw [body?_of_func? ((hs.func? id).trans (if_pos rfl))] at hb
  rw [body?_of_func? ((hs'.func? id).trans (if_pos rfl))] at hb'
  cases hb
  cases hb'
  rw [differenceBody, differenceBody, List.filter_append, List.filter_append,
    List.append_cancel_left_eq] at hbody
  simp at hbody

end Compiler

end Reckoner
