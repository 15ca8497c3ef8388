/-
Powers of numbers.

A whole number can be raised to a power as a number, or as an element of
any structure with a product. Both give the same, but not by the same
instance. Here it is always the power of numbers, whatever else is in
sight, so that a definition means the same wherever it is read.
-/
namespace KnnOracle

attribute [default_instance 10000,
instance 10000] instPowNat

end KnnOracle
