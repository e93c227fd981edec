import ContractAbi.Float.Shortest
/-!
Float text without an exponent: the shortest digits that read back, written out in positional
notation with as many zeros as the point needs. Negative values, negative zero included, take a
minus sign; the non-finite values are `NaN`, `inf` and `-inf`.
-/

namespace ContractAbi.Binary64

/-- Digits with the point after the first `p` of them, padded with zeros on either side. -/
def positional (ds : String) (p : Int) : String :=
  let len := ds.length
  if p ≤ 0 then "0." ++ String.ofList (List.replicate (-p).toNat '0') ++ ds
  else if p.toNat < len then
    String.ofList (ds.toList.take p.toNat) ++ "." ++ String.ofList (ds.toList.drop p.toNat)
  else ds ++ String.ofList (List.replicate (p.toNat - len) '0')

def toText (x : Binary64) : String :=
  if x.isNaN then "NaN"
  else if !x.isFinite then (if x.sign then "-inf" else "inf")
  else
    let body :=
      if x.significand = 0 then "0"
      else
        let d := Float.shortest x
        let ds := toString d.1
        positional ds (d.2 + ds.length)
    (if x.sign then "-" else "") ++ body

end ContractAbi.Binary64
