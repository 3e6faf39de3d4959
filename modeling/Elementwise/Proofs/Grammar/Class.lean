import Elementwise.Grammar.Class
import Elementwise.Proofs.Grammar.Function

/-!
# The layout of classes

The contracts of the parsers of class members, class bodies and classes.  A word in front of a key
may have been read as a key itself; it is dropped then, and only the last key counts.
-/

set_option autoImplicit false
namespace Elementwise
namespace Parse

variable {t : Text} {x : Spot} {d : Deeper}

theorem memberHead_gives (hd : d.Lawful t) :
    Gives t x (memberHead d) fun head y => ∀ key ∈ head.key, Covers t x y key.marks := by
  refine .token fun _ _ => (accept_gives _).bind fun _ y hy _ => .ite (.pure (by simp)) ?_
  refine .isAt fun _ => (propertyKey_gives hd).bind fun key z _ hkey => .token fun _ _ => ?_
  have hz := hkey.past
  extract_lets rest
  have hrest {w : Spot} {key : Node} (hzw : z.Later w) (hkey : Covers t x w key.marks)
      (a : Token) (computed isStatic isAsync : Bool) :
      Gives t w (rest ⟨a, key, computed, isStatic, isAsync⟩) fun head y =>
        ∀ key ∈ head.key, Covers t x y key.marks := by
    refine .get fun _ _ _ => .ite ?_ (.pure (by simpa using hkey))
    refine (propertyKey_gives hd).bind fun key v _ hkey => .guard .refuseFor (.pure ?_)
    simpa using hkey.covers.mono (by omega)
  refine .ite (.isAt fun _ => (accept_gives _).bind fun _ w hw _ => .ite ?_ ?_) ?_
  · exact .pure_bind <| hrest hw (hkey.covers.mono (by omega)) _ _ _ _
  · refine (propertyKey_gives hd).bind fun key v _ hkey => ?_
    have hv := hkey.past
    exact .pure_bind <| hrest (by omega) (hkey.covers.mono (by omega)) _ _ _ _
  · exact .pure_bind <| hrest (.refl z) (hkey.covers.mono (by omega)) _ _ _ _

theorem classMember_gives (hd : d.Lawful t) (hasConstructor : Bool) :
    Gives t x (classMember d hasConstructor) fun r y => r.1.Sealed t x y := by
  refine .here <| (memberHead_gives hd).bind fun head y hy hhead => .token fun next _ => ?_
  extract_lets rest
  have hrest {z : Spot} (kind? : Option MemberKind) (computed : Bool) {key : Option Node}
      {value : Node} (hpast : x.Past z)
      (hmember : ∀ k ∈ key, Closed t x z (k.marks ++ value.marks)) :
      Gives t z (rest (kind?, computed, key, value)) fun r y => r.1.Sealed t x y := by
    dsimp only [rest]
    split
    · refine .guard .refuseFor <| .ite (.guard .refuseFor <| .guard .refuseFor ?_) ?_
      · exact .spanFrom <| .pure <| .of_closed (hmember _ rfl) rfl trivial (by omega)
      · exact .spanFrom <| .pure <| .of_closed (hmember _ rfl) rfl trivial (by omega)
    · exact .refuseToken
  have hnone (computed : Bool) (key : Option Node) (value : Node) :
      Gives t y (rest (none, computed, key, value)) fun r y => r.1.Sealed t x y := .refuseToken
  clear_value rest
  -- behind a word with a meaning the key is still to come
  have hkeyed {z w : Spot} (kind : MemberKind) (computed : Bool) {key value : Node}
      (hkey : key.Whole t y z) (hvalue : IsMethod t z w value) :
      Gives t w (rest (some kind, computed, some key, value)) fun r y => r.1.Sealed t x y := by
    have hz := hkey.past
    have hw := hvalue.whole.past
    refine hrest _ _ (by omega) ?_
    rintro _ ⟨⟩
    exact (hkey.covers.append_enclosed hvalue.enclosed).mono (by omega)
  have hmethod (form : MethodForm) {z : Spot} : Gives t z (method d form fun _ => pure ())
      fun n y => IsMethod t z y n := method_gives hd form fun _ _ => .pure rfl
  refine .ite ?_ <| .ite ?_ <| .ite ?_ <| .ite ?_ ?_
  · refine .isAt fun _ => (propertyKey_gives hd).bind fun key z _ hkey => .modifyContext ?_
    exact (getter_gives hd).bind fun value w _ hvalue => .pure_bind <| hkeyed _ _ hkey hvalue
  · refine .isAt fun _ => (propertyKey_gives hd).bind fun key z _ hkey => ?_
    exact (setter_gives hd).bind fun value w _ hvalue => .pure_bind <| hkeyed _ _ hkey hvalue
  · refine .isAt fun _ => (propertyKey_gives hd).bind fun key z _ hkey => ?_
    exact (hmethod _).bind fun value w _ hvalue => .pure_bind <| hkeyed _ _ hkey hvalue
  · refine .ite ((hmethod _).bind ?value) ((plainMethod_gives hd).bind ?value)
    intro value z _ hvalue
    have hz := hvalue.whole.past
    refine .pure_bind <| hrest _ _ (by omega) fun key hkey => ?_
    exact (hhead key hkey).append_enclosed hvalue.enclosed
  · exact .pure_bind <| hnone _ _ _

theorem classBody_gives (hd : d.Lawful t) :
    Gives t x (classBody d) fun n y => x.Past y ∧ Enclosed t x y n.marks := by
  refine .here <| (expect_gives _).bind fun _ y _ hy => ?_
  refine (Gives.iterate (I := fun r z => Closed t y z (Node.marksOfAll r.1.reverse)) 
    (R := fun ns z => Closed t y z (Node.marksOfAll ns)) ?_ (.nil (.refl y))).bind
      fun members z _ hmembers => ?_
  · intro ⟨members, hasConstructor⟩ z hmembers
    refine .isAt fun _ => .ite (.pure hmembers) <| .choice (accept_gives _) (fun w hw => ?_) ?_
    · exact .pure (hmembers.mono (by omega))
    refine (classMember_gives hd _).bind fun ⟨member, hasConstructor⟩ v _ hmember => .pure ?_
    exact hmembers.snoc_closed hmember.closed (.refl z)
  · have hz := hmembers.later
    refine (expect_gives _).bind fun _ w _ hw => .spanFrom <| .pure ⟨by omega, y, hy, ?_⟩
    exact hmembers.mono (by omega)

theorem class_gives (hd : d.Lawful t) (isDeclaration : Bool) {name : Parse (Option Node)}
    (hname : ∀ x, Gives t x name fun id y => Covers t x y (Node.marksOf? id)) :
    Gives t x (class_ d isDeclaration name) fun n y => n.Whole t x y ∧ n.Sealed t x y := by
  refine .here <| .get fun _ _ _ => .modifyContext <|
    (expectKeyword_gives _).bind fun _ y _ hy => ?_
  refine (hname y).bind fun id z _ hid => (acceptKeyword_gives _).bind fun b w _ hw => ?_
  have hz := hid.later
  extract_lets rest
  have hrest {v : Spot} {superClass : Option Node}
      (hsuper : Follows t z v (Node.marksOf? superClass)) :
      Gives t v (rest superClass) fun n y => n.Whole t x y ∧ n.Sealed t x y := by
    have hv := hsuper.covers.later
    refine (classBody_gives hd).bind fun body u _ ⟨hu, hbody⟩ => ?_
    refine .modifyContext <| .spanFrom <| .pure ?_
    have hclosed := (hid.append hsuper).append_enclosed hbody
    rw [List.append_assoc] at hclosed
    exact ⟨.of_covers hclosed.toCovers rfl trivial (by omega),
      .of_closed hclosed rfl trivial (by omega)⟩
  clear_value rest
  cases b with
  | true =>
    refine (hd.read _ w).isolate.bind fun e v _ he => .pure_bind <| hrest ?_
    exact he.covers.follows hw
  | false => exact .pure_bind <| hrest (.inl ⟨rfl, hw⟩)

theorem classDeclaration_gives (hd : d.Lawful t) :
    Gives t x (classDeclaration d) fun n y => n.Sealed t x y := by
  refine (class_gives hd _ fun _ => ?_).mono fun _ _ _ hn => hn.2
  exact (bindingIdentifier_gives none).bind fun _ _ _ hid => .pure hid.covers

theorem classExpression_gives (hd : d.Lawful t) :
    Gives t x (classExpression d) fun n y => n.Whole t x y := by
  refine (class_gives hd _ fun x => ?_).mono fun _ _ _ hn => hn.1
  refine .token fun _ _ => ?_
  split
  · exact (bindingIdentifier_gives none).bind fun _ _ _ hid => .pure hid.covers
  · exact .pure (.nil (by omega))

end Parse
end Elementwise
