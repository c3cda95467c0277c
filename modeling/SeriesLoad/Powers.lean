/-!
# Powers

A power of a number is read through `NatPow` in every module. Where algebra is imported there are
other ways to read it, which have the same values but are other terms: with a fixed reading the
modules that import algebra speak of the same definitions as those that do not.
-/

attribute [default_instance 20000, instance (2000)] instPowNat
