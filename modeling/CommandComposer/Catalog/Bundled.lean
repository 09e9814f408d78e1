import CommandComposer.Text
/-!
# Bundled — the blocks known without a file

The list serves where the user has no catalog of their own.
-/
namespace CommandComposer
namespace Catalog

def bundledNames : List Text := List.map String.toList [
  "air", "stone", "granite", "polished_granite", "diorite", "polished_diorite", "andesite", "polished_andesite",
  "deepslate", "cobbled_deepslate", "polished_deepslate", "calcite", "tuff", "dripstone_block", "grass_block",
  "dirt", "coarse_dirt", "podzol", "rooted_dirt", "mud", "crimson_nylium", "warped_nylium", "cobblestone",
  "oak_planks", "spruce_planks", "birch_planks", "jungle_planks", "acacia_planks", "cherry_planks",
  "dark_oak_planks", "mangrove_planks", "bamboo_planks", "crimson_planks", "warped_planks", "oak_sapling",
  "spruce_sapling", "birch_sapling", "jungle_sapling", "acacia_sapling", "cherry_sapling", "dark_oak_sapling",
  "bedrock", "water", "lava", "sand", "suspicious_sand", "red_sand", "gravel", "suspicious_gravel", "gold_ore",
  "deepslate_gold_ore", "iron_ore", "deepslate_iron_ore", "coal_ore", "deepslate_coal_ore", "nether_gold_ore",
  "copper_ore", "deepslate_copper_ore", "lapis_ore", "deepslate_lapis_ore", "redstone_ore", "deepslate_redstone_ore",
  "diamond_ore", "deepslate_diamond_ore", "emerald_ore", "deepslate_emerald_ore", "nether_quartz_ore",
  "ancient_debris", "oak_log", "spruce_log", "birch_log", "jungle_log", "acacia_log", "cherry_log", "dark_oak_log",
  "mangrove_log", "stripped_oak_log", "oak_wood", "oak_leaves", "spruce_leaves", "birch_leaves", "jungle_leaves",
  "acacia_leaves", "cherry_leaves", "dark_oak_leaves", "mangrove_leaves", "azalea_leaves", "sponge", "wet_sponge",
  "glass", "tinted_glass", "lapis_block", "sandstone", "chiseled_sandstone", "cut_sandstone", "red_sandstone",
  "dispenser", "dropper", "note_block", "powered_rail", "detector_rail", "rail", "activator_rail", "sticky_piston",
  "piston", "slime_block", "honey_block", "white_wool", "orange_wool", "magenta_wool", "light_blue_wool",
  "yellow_wool", "lime_wool", "pink_wool", "gray_wool", "light_gray_wool", "cyan_wool", "purple_wool", "blue_wool",
  "brown_wool", "green_wool", "red_wool", "black_wool", "white_concrete", "orange_concrete", "magenta_concrete",
  "light_blue_concrete", "yellow_concrete", "lime_concrete", "pink_concrete", "gray_concrete", "light_gray_concrete",
  "cyan_concrete", "purple_concrete", "blue_concrete", "brown_concrete", "green_concrete", "red_concrete",
  "black_concrete", "white_stained_glass", "black_stained_glass", "terracotta", "white_terracotta", "red_terracotta",
  "gold_block", "iron_block", "copper_block", "diamond_block", "emerald_block", "netherite_block", "redstone_block",
  "coal_block", "raw_iron_block", "raw_gold_block", "raw_copper_block", "amethyst_block", "budding_amethyst",
  "quartz_block", "bricks", "bookshelf", "chiseled_bookshelf", "mossy_cobblestone", "obsidian", "crying_obsidian",
  "torch", "wall_torch", "soul_torch", "fire", "soul_fire", "spawner", "chest", "trapped_chest", "ender_chest",
  "barrel", "crafting_table", "furnace", "blast_furnace", "smoker", "ladder", "oak_door", "iron_door",
  "oak_trapdoor", "iron_trapdoor", "oak_fence", "oak_fence_gate", "cobblestone_wall", "stone_bricks",
  "mossy_stone_bricks", "cracked_stone_bricks", "chiseled_stone_bricks", "deepslate_bricks", "oak_stairs",
  "stone_stairs", "cobblestone_stairs", "stone_brick_stairs", "oak_slab", "stone_slab", "smooth_stone",
  "smooth_stone_slab", "cobblestone_slab", "lever", "stone_pressure_plate", "oak_pressure_plate", "stone_button",
  "oak_button", "redstone_wire", "redstone_torch", "redstone_lamp", "repeater", "comparator", "observer", "hopper",
  "daylight_detector", "target", "tnt", "snow", "snow_block", "ice", "packed_ice", "blue_ice", "cactus", "clay",
  "sugar_cane", "jukebox", "pumpkin", "carved_pumpkin", "jack_o_lantern", "melon", "hay_block", "netherrack",
  "soul_sand", "soul_soil", "basalt", "polished_basalt", "blackstone", "glowstone", "nether_bricks",
  "red_nether_bricks", "nether_wart_block", "warped_wart_block", "magma_block", "shroomlight", "end_stone",
  "end_stone_bricks", "purpur_block", "purpur_pillar", "end_rod", "chorus_plant", "chorus_flower", "dragon_egg",
  "end_portal_frame", "prismarine", "prismarine_bricks", "dark_prismarine", "sea_lantern", "sculk", "sculk_sensor",
  "sculk_catalyst", "sculk_shrieker", "reinforced_deepslate", "beacon", "conduit", "anvil", "chipped_anvil",
  "damaged_anvil", "enchanting_table", "brewing_stand", "cauldron", "lectern", "grindstone", "smithing_table",
  "stonecutter", "loom", "cartography_table", "fletching_table", "composter", "bell", "lantern", "soul_lantern",
  "campfire", "soul_campfire", "white_bed", "red_bed", "scaffolding", "lodestone", "respawn_anchor", "beehive",
  "bee_nest", "moss_block", "moss_carpet", "glow_lichen", "white_carpet", "red_carpet", "dandelion", "poppy",
  "blue_orchid", "allium", "azure_bluet", "oxeye_daisy", "cornflower", "lily_of_the_valley", "sunflower",
  "tall_grass", "short_grass", "fern", "dead_bush", "vine", "lily_pad", "barrier", "light", "structure_block",
  "structure_void", "jigsaw", "command_block", "chain_command_block", "repeating_command_block"]

end Catalog
end CommandComposer
