/-!
Powers of numbers.

They are those of the core library in every module, also in one that imports another power of numbers.
-/

attribute [instance (high), default_instance high] instPowNat
